/-
# What a scheduler cancellation call does

Every call of the scheduler cancellation operations does one of a few things to
the two files of a job (`CancelWrite`): nothing, the removal of pending files
whose completed record is there, a new pending record, or one change of the
pending record (`CancelChange`), persisted.  `CancelCall.wp_prog` says so once for
all calls; a call that is stopped leaves one of these stores or, between the two
writes of a hand-over, the completed record beside the pending one
(`CancelLeft`).
-/

import ClioQueue.QuietWrites
import ClioQueue.SchedulerCancelClaims

namespace ClioQueue

open Durable Durable.Prog

/-- A scheduler identity of a job. -/
structure CancelKey where
  cluster : String
  jobId : DurableRecordId
  schedulerJobId : String
  deriving DecidableEq

/-- What a call did, as its caller sees it. -/
inductive CancelLabel where
  | quiet
  | registered (key : CancelKey)
  | issued (kind : ClaimKind) (key : CancelKey) (claim : SchedulerCancelClaim)
  | accepted (kind : ClaimKind) (key : CancelKey) (claimId : DurableRecordId)
  deriving DecidableEq

/-- The pending file of a job. -/
@[reducible]
def cancelPendingFile (cluster : String) (jobId : DurableRecordId) : Path :=
  .schedulerCancelPending (stableRefToken [cluster]) jobId

/-- The completed file of a job. -/
@[reducible]
def cancelDispositionFile (cluster : String) (jobId : DurableRecordId) : Path :=
  .schedulerCancelDisposition (stableRefToken [cluster]) jobId

/-! ### Changes of a record -/

/-- What recording a claimed attempt or poll does to a disposition. -/
structure ClaimKind.Recorded (kind : ClaimKind) (current item : SchedulerCancelDisposition) :
    Prop where
  schedulerJobId : item.schedulerJobId = current.schedulerJobId
  valid : item.Valid
  count : kind.count item = kind.count current + 1
  unclaimed : kind.claimId item = none
  others : ∀ other, other ≠ kind → other.count item = other.count current ∧
    other.claimId item = other.claimId current ∧ other.expiresAt item = other.expiresAt current

/-- One change of the record of a job. -/
inductive CancelChange (r : SchedulerCancelPending) : CancelLabel → SchedulerCancelPending → Prop
  | registered (sid : String) (provider : Option String) (verified : Bool)
      (createdAt updatedAt : Time) (hnew : r.find sid = none)
      (hval : (registrationCandidate sid provider verified createdAt).Valid) :
      CancelChange r (.registered ⟨r.cluster, r.jobId, sid⟩)
        { r with
          dispositions := r.dispositions ++ [registrationCandidate sid provider verified createdAt]
          updatedAt }
  | reinstated (sid : String) (provider : Option String) (createdAt replacedAt updatedAt : Time)
      (existing : SchedulerCancelDisposition) (hfound : r.find sid = some existing)
      (href : existing.state = .refused)
      (hval : (registrationCandidate sid provider true createdAt).Valid) :
      CancelChange r (.registered ⟨r.cluster, r.jobId, sid⟩)
        { r with
          dispositions := SchedulerCancelPending.replaced
            { registrationCandidate sid provider true createdAt with
              attempts := existing.attempts
              confirmationAttempts := existing.confirmationAttempts
              updatedAt := replacedAt } r.dispositions
          updatedAt }
  | finalized (updatedAt : Time) (hsome : r.dispositions ≠ []) :
      CancelChange r .quiet { r with identityResolution := .resolved, updatedAt }
  | closed (updatedAt : Time) (hnone : r.dispositions = []) :
      CancelChange r .quiet { r with identityResolution := .none, updatedAt }
  | superseded (updatedAt : Time) :
      CancelChange r .quiet
        { r with
          identityResolution := .superseded
          dispositions := r.dispositions.map SchedulerCancelDisposition.unclaimed
          updatedAt }
  | issued (kind : ClaimKind) (current : SchedulerCancelDisposition)
      (claim : SchedulerCancelClaim) (hresolved : r.identityResolution = .resolved)
      (hfound : r.find claim.schedulerJobId = some current)
      (hdue : kind.due current claim.claimedAt = true) (hprov : claim.provider ≠ "")
      (hknown : ∀ known, current.provider = some known → known = claim.provider)
      (hexp : claim.claimedAt < claim.expiresAt) :
      CancelChange r (.issued kind ⟨r.cluster, r.jobId, claim.schedulerJobId⟩ claim)
        { r with
          dispositions := SchedulerCancelPending.replaced
            (kind.claimed current claim.provider claim.claimId claim.claimedAt claim.expiresAt)
            r.dispositions
          updatedAt := claim.claimedAt }
  | accepted (kind : ClaimKind) (sid : String) (claimId : DurableRecordId)
      (current item : SchedulerCancelDisposition) (updatedAt : Time)
      (hfound : r.find sid = some current) (hclaim : kind.claimId current = some claimId)
      (hrecorded : kind.Recorded current item) :
      CancelChange r (.accepted kind ⟨r.cluster, r.jobId, sid⟩ claimId)
        { r with
          dispositions := SchedulerCancelPending.replaced item r.dispositions
          updatedAt }

theorem CancelChange.same_job {r r' : SchedulerCancelPending} {label : CancelLabel}
    (h : CancelChange r label r') : r'.cluster = r.cluster ∧ r'.jobId = r.jobId := by
  cases h <;> exact ⟨rfl, rfl⟩

/-! ### Changes of the store -/

/-- The store once a record is persisted. -/
def cancelPersisted (s : Store) (record : SchedulerCancelPending) : Store :=
  if record.complete then
    (s.write (cancelDispositionFile record.cluster record.jobId) record).unlink
      (cancelPendingFile record.cluster record.jobId)
  else s.write (cancelPendingFile record.cluster record.jobId) record

/-- No cancellation has been requested. -/
def NoCancellation (s : Store) : Prop :=
  ∀ cluster jobId, s.read (cancelPendingFile cluster jobId) = none ∧
    s.read (cancelDispositionFile cluster jobId) = none

/-- Pending files whose completed record is there have been removed. -/
def CancelDropped (s t : Store) : Prop :=
  ∀ p, t.read p = s.read p ∨
    ∃ cluster jobId, p = cancelPendingFile cluster jobId ∧ t.read p = none ∧
      (s.read (cancelDispositionFile cluster jobId)).isSome

/-- What a call that runs to its end does. -/
inductive CancelWrite (s : Store) : CancelLabel → Store → Prop
  | same : CancelWrite s .quiet s
  | known (r : SchedulerCancelPending) (sid : String)
      (hread : s.read (cancelPendingFile r.cluster r.jobId) = some r)
      (hfound : r.find sid ≠ none) :
      CancelWrite s (.registered ⟨r.cluster, r.jobId, sid⟩) s
  | dropped {t : Store} (h : CancelDropped s t) : CancelWrite s .quiet t
  | created (record : SchedulerCancelPending) (hval : record.Valid)
      (hempty : record.dispositions = []) (hpend : record.identityResolution = .pending)
      (hnone : s.read (cancelPendingFile record.cluster record.jobId) = none)
      (hnone' : s.read (cancelDispositionFile record.cluster record.jobId) = none) :
      CancelWrite s .quiet (s.write (cancelPendingFile record.cluster record.jobId) record)
  | persisted {label : CancelLabel} (r r' : SchedulerCancelPending)
      (hread : s.read (cancelPendingFile r.cluster r.jobId) = some r) (hval : r.Valid)
      (hchg : CancelChange r label r') : CancelWrite s label (cancelPersisted s r')

/-- What a call that may do what `A` allows leaves wherever it stops. -/
inductive CancelLeft (A : CancelLabel → Prop) (s : Store) : Store → Prop
  | ended {label : CancelLabel} {t : Store} (hallow : A label) (h : CancelWrite s label t) :
      CancelLeft A s t
  | torn {label : CancelLabel} (hallow : A label) (r r' : SchedulerCancelPending)
      (hread : s.read (cancelPendingFile r.cluster r.jobId) = some r) (hval : r.Valid)
      (hchg : CancelChange r label r') (hcomp : r'.complete = true) :
      CancelLeft A s (s.write (cancelDispositionFile r'.cluster r'.jobId) r')

theorem CancelDropped.refl (s : Store) : CancelDropped s s := fun _ => .inl rfl

theorem CancelDropped.unlink {s t : Store} {cluster : String} {jobId : DurableRecordId}
    (h : CancelDropped s t) (hdone : (t.read (cancelDispositionFile cluster jobId)).isSome) :
    CancelDropped s (t.unlink (cancelPendingFile cluster jobId)) := by
  have hdone' : (s.read (cancelDispositionFile cluster jobId)).isSome := by
    rcases h (cancelDispositionFile cluster jobId) with hsame | ⟨_, _, hp, _⟩
    · rw [← hsame]
      exact hdone
    · cases hp
  intro p
  by_cases hp : p = cancelPendingFile cluster jobId
  · subst hp
    exact .inr ⟨cluster, jobId, rfl, Files.read_unlink_self _ _, hdone'⟩
  · rw [Files.read_unlink_ne hp]
    exact h p

section

variable [Platform] {C : Store → Prop} {E : Post RelayError} {s : Store}
  {v : Supply} {jobId : DurableRecordId} {Q : Post (Option SchedulerCancelPending)}
  {error : Option String} {current item : SchedulerCancelDisposition} {r : SchedulerCancelPending}
  {cluster : String} {observedAt : Time} {retryDelaySeconds : ℚ}

/-! ### Reading -/

/-- A stored record is read back when it is valid, and refused otherwise. -/
theorem wp_decodeStored {stored : Option SchedulerCancelPending}
    (hnone : stored = none → Q none s v) (hsome : ∀ r, stored = some r → r.Valid → Q (some r) s v)
    (hE : ∀ e, E e s v) : wp (decodeStored stored) C Q E s v := by
  rcases stored with _ | r
  · exact (wp_pure _).2 (hnone rfl)
  · rw [decodeStored, wp_bind, wp_ofExcept, SchedulerCancelPending.decode_document,
      SchedulerCancelPending.modelValidate]
    refine ⟨fun record hrec => ?_, fun e _ => hE e⟩
    by_cases hval : r.Valid
    · rw [if_pos hval] at hrec
      injection hrec with hrec
      subst hrec
      exact (wp_pure _).2 (hsome r rfl hval)
    · rw [if_neg hval] at hrec
      cases hrec

theorem wp_readSchedulerCancelPending
    (hnone : s.read (cancelPendingFile cluster jobId) = none → Q none s v)
    (hsome : ∀ r, s.read (cancelPendingFile cluster jobId) = some r → r.Valid → Q (some r) s v)
    (hE : ∀ e, E e s v) : wp (readSchedulerCancelPending cluster jobId) C Q E s v := by
  rw [readSchedulerCancelPending, wp_bind, read_eq_look, wp_look]
  exact wp_decodeStored hnone hsome hE

theorem wp_readSchedulerCancelDisposition
    (hnone : s.read (cancelDispositionFile cluster jobId) = none → Q none s v)
    (hsome : ∀ r, s.read (cancelDispositionFile cluster jobId) = some r → r.Valid → Q (some r) s v)
    (hE : ∀ e, E e s v) : wp (readSchedulerCancelDisposition cluster jobId) C Q E s v := by
  rw [readSchedulerCancelDisposition, wp_bind, read_eq_look, wp_look]
  exact wp_decodeStored hnone hsome hE

/-- The pending record of a job, under its own name. -/
theorem wp_requireSchedulerCancelPending {Q : Post SchedulerCancelPending}
    (hfound : ∀ r, r.cluster = cluster → r.jobId = jobId → s.read (cancelPendingFile r.cluster r.jobId) = some r → r.Valid → Q r s v)
    (hE : ∀ e, E e s v) : wp (requireSchedulerCancelPending jobId cluster) C Q E s v := by
  rw [requireSchedulerCancelPending, wp_bind]
  refine wp_readSchedulerCancelPending (fun _ => ?_) (fun r hread hval => ?_) hE
  · exact (wp_raise _).2 (hE _)
  · refine wp_require_then (fun hname => ?_) fun _ => hE _
    rw [Bool.and_eq_true, beq_iff_eq, beq_iff_eq] at hname
    obtain ⟨hj, hcl⟩ := hname
    have hown : ∀ cluster jobId, r.cluster = cluster → r.jobId = jobId →
        s.read (cancelPendingFile cluster jobId) = some r →
        s.read (cancelPendingFile r.cluster r.jobId) = some r := by
      rintro _ _ rfl rfl h
      exact h
    exact (wp_pure _).2 (hfound r hcl hj (hown _ _ hcl hj hread) hval)

/-- **Persisting a change.**  A complete record leaves the completed file beside the
pending one between its two writes. -/
theorem wp_persistSchedulerCancelRecord {A : CancelLabel → Prop} {r' : SchedulerCancelPending}
    {label : CancelLabel} {Q : Post SchedulerCancelPending} (hallow : A label)
    (hread : s.read (cancelPendingFile r.cluster r.jobId) = some r) (hval : r.Valid)
    (hchg : CancelChange r label r') (hC : ∀ t, CancelLeft A s t → C t)
    (hQ : CancelWrite s label (cancelPersisted s r') → Q r' (cancelPersisted s r') v)
    (hE : ∀ e, E e s v) : wp (persistSchedulerCancelRecord r') C Q E s v := by
  have hwrite : CancelWrite s label (cancelPersisted s r') := .persisted r r' hread hval hchg
  have hleft : C (cancelPersisted s r') := hC _ (.ended hallow hwrite)
  have hdone := hQ hwrite
  unfold cancelPersisted at hleft hdone
  unfold persistSchedulerCancelRecord
  by_cases hcomp : r'.complete = true
  · rw [if_pos hcomp] at hleft hdone
    rw [if_pos hcomp]
    refine wp_putWithin_then (fun _ => ⟨hC _ (.torn hallow r r' hread hval hchg hcomp), ?_⟩)
      fun _ => hE _
    rw [wp_bind, wp_unlink]
    exact ⟨hleft, (wp_pure _).2 hdone⟩
  · rw [if_neg hcomp] at hleft hdone
    rw [if_neg hcomp]
    exact wp_putWithin_then (fun _ => ⟨hleft, (wp_pure _).2 hdone⟩) fun _ => hE _

/-- The pending record of a job that has no completed one, or the removal of its pending
file. -/
theorem wp_openSchedulerCancel (hdone : ∀ t, CancelDropped s t → C t ∧ Q none t v)
    (hfound : ∀ r, r.cluster = cluster → r.jobId = jobId → s.read (cancelPendingFile r.cluster r.jobId) = some r → r.Valid → Q (some r) s v)
    (hE : ∀ e, E e s v) : wp (openSchedulerCancel jobId cluster) C Q E s v := by
  rw [openSchedulerCancel, wp_bind]
  refine wp_readSchedulerCancelDisposition (fun _ => ?_) (fun r hread _ => ?_) hE
  · rw [wp_bind]
    exact wp_requireSchedulerCancelPending (fun r hcl hj hread hval =>
        (wp_pure _).2 (hfound r hcl hj hread hval)) hE
  · refine wp_require_then (fun _ => ?_) fun _ => hE _
    rw [wp_bind, wp_unlink]
    have hdrop : CancelDropped s (s.unlink (cancelPendingFile cluster jobId)) :=
      (CancelDropped.refl s).unlink (by rw [hread]; rfl)
    exact ⟨(hdone _ hdrop).1, (wp_pure _).2 (hdone _ hdrop).2⟩

omit [Platform] in
theorem wp_registeredDisposition {sid : String} {Q : Post SchedulerCancelDisposition}
    (hfound : ∀ current, r.find sid = some current → Q current s v) (hE : ∀ e, E e s v) :
    wp (registeredDisposition r sid) C Q E s v := by
  unfold registeredDisposition
  rcases hfind : r.find sid with _ | current
  · exact (wp_raise _).2 (hE _)
  · exact (wp_pure _).2 (hfound current hfind)

/-! ### Recording -/

omit [Platform] in
theorem SchedulerCancelDisposition.modelValidate_ok {d : SchedulerCancelDisposition}
    (h : d.modelValidate = .ok item) : item = d ∧ d.Valid := by
  unfold SchedulerCancelDisposition.modelValidate at h
  by_cases hval : d.Valid
  · rw [if_pos hval] at h
    injection h with h
    exact ⟨h.symm, hval⟩
  · rw [if_neg hval] at h
    cases h

omit [Platform] in
theorem SchedulerCancelPending.modelValidate_ok {record : SchedulerCancelPending}
    (h : r.modelValidate = .ok record) : record = r ∧ r.Valid := by
  unfold SchedulerCancelPending.modelValidate at h
  by_cases hval : r.Valid
  · rw [if_pos hval] at h
    injection h with h
    exact ⟨h.symm, hval⟩
  · rw [if_neg hval] at h
    cases h

theorem attemptRecorded_ok {provider : String} {accepted : Bool} {maxAttempts : Int}
    (h : attemptRecorded current provider accepted error maxAttempts retryDelaySeconds observedAt = .ok item) :
    ClaimKind.attempt.Recorded current item := by
  obtain ⟨_, -, hitem⟩ := except_bind_ok h
  obtain ⟨rfl, hval⟩ := SchedulerCancelDisposition.modelValidate_ok hitem
  refine ⟨rfl, hval, rfl, rfl, fun other hother => ?_⟩
  rcases other with _ | _
  · exact absurd rfl hother
  · exact ⟨rfl, rfl, rfl⟩

theorem observationRecorded_ok {phase : SchedulerPhase} {notFound : Bool}
    {maxConfirmationAttempts : Int}
    (h : observationRecorded current phase notFound error maxConfirmationAttempts retryDelaySeconds observedAt = .ok item) :
    ClaimKind.confirmation.Recorded current item := by
  obtain ⟨_, -, hitem⟩ := except_bind_ok h
  obtain ⟨rfl, hval⟩ := SchedulerCancelDisposition.modelValidate_ok hitem
  refine ⟨rfl, hval, rfl, rfl, fun other hother => ?_⟩
  rcases other with _ | _
  · exact ⟨rfl, rfl, rfl⟩
  · exact absurd rfl hother

end

/-! ### Calls -/

section

variable [Platform] [Entropy] {s : Store} {v : Supply}

/-- What a claim call did. -/
def claimLabel (kind : ClaimKind) (key : CancelKey) : Option SchedulerCancelClaim → CancelLabel
  | none => .quiet
  | some claim => .issued kind key claim

/-- What a record call did. -/
def recordLabel (kind : ClaimKind) (key : CancelKey) (claimId : DurableRecordId) :
    Option SchedulerCancelPending → CancelLabel
  | none => .quiet
  | some _ => .accepted kind key claimId

/-- Every end of a call is a write that `A` allows, and so is everything it leaves. -/
def CancelEnds (A : CancelLabel → Prop) {α : Type} (m : Op α) (label : α → CancelLabel) : Prop :=
  ∀ s v, Prog.wp m (CancelLeft A s) (fun a t _ => A (label a) ∧ CancelWrite s (label a) t)
    (fun _ t _ => CancelWrite s .quiet t) s v

variable {A : CancelLabel → Prop}

omit [Platform] in
theorem wp_observedNow {now : Option Time} {C : Store → Prop} {Q : Post Time}
    {E : Post RelayError} (h : ∀ time w, Q time s w) :
    wp (observedNow now) C Q E s v := by
  rcases now with _ | now
  · exact wp_utcNow.2 (h _ _)
  · exact (wp_pure _).2 (h now v)

/-- Making a cancellation pending ends no claim and registers no identity, wherever it stops. -/
theorem ensureSchedulerCancelPending_ends (hquiet : A .quiet) (jobId : DurableRecordId)
    (reason : String) : CancelEnds A (ensureSchedulerCancelPending jobId reason) fun _ => .quiet := by
  intro s v
  have hsame : ∀ _ : RelayError, CancelWrite s .quiet s := fun _ => .same
  unfold ensureSchedulerCancelPending
  rw [wp_bind]
  refine readOnly_requireIndexMigrationComplete.wp (fun _ w => ?_) fun e _ => hsame e
  rw [wp_bind]
  refine (readOnly_getJob jobId).wp (fun job w => ?_) fun e _ => hsame e
  rw [wp_bind, wp_utcNow]
  unfold ensureSchedulerCancelPendingUnlocked
  rw [wp_bind]
  refine wp_readSchedulerCancelPending (fun hnone => ?_) (fun r _ _ => ?_) hsame
  · rw [wp_bind]
    refine wp_readSchedulerCancelDisposition (fun hnone' => ?_) (fun r _ _ => ?_) hsame
    · rw [wp_bind, wp_listing]
      refine wp_require_then (fun _ => ?_) fun _ => .same
      rw [wp_bind, wp_utcNow]
      refine wp_ofExcept_then (fun record hok => ?_) fun e _ => hsame e
      obtain ⟨rfl, hval⟩ := SchedulerCancelPending.modelValidate_ok hok
      rw [wp_bind, wp_put]
      have hwrite : CancelWrite s .quiet _ := .created _ hval rfl rfl hnone hnone'
      exact ⟨.ended hquiet hwrite, (wp_pure _).2 ⟨hquiet, hwrite⟩⟩
    · exact wp_require_then (fun _ => (wp_pure _).2 ⟨hquiet, .same⟩) fun _ => .same
  · exact wp_require_then (fun _ => (wp_pure _).2 ⟨hquiet, .same⟩) fun _ => .same

/-- Registering an identity once ends as the registration of that job and scheduler id, and nothing
on the way is left that is not allowed. -/
theorem registerSchedulerCancelIdentityOnce_ends (jobId : DurableRecordId)
    (cluster schedulerJobId : String) (provider : Option String) (ownershipVerified : Bool)
    (hallow : A (.registered ⟨cluster, jobId, schedulerJobId⟩)) :
    CancelEnds A (registerSchedulerCancelIdentityOnce jobId cluster schedulerJobId provider
      ownershipVerified) fun _ => .registered ⟨cluster, jobId, schedulerJobId⟩ := by
  intro s v
  have hsame : ∀ _ : RelayError, CancelWrite s .quiet s := fun _ => .same
  unfold registerSchedulerCancelIdentityOnce
  rw [wp_bind]
  refine wp_requireSchedulerCancelPending (fun r hcl hj hread hval => ?_) hsame
  subst hcl hj
  rw [wp_bind, wp_utcNow]
  refine wp_ofExcept_then (fun candidate hok => ?_) fun e _ => hsame e
  obtain ⟨rfl, hcand⟩ := SchedulerCancelDisposition.modelValidate_ok hok
  rcases hfind : r.find schedulerJobId with _ | existing
  · simp only [wp_bind, wp_utcNow]
    refine wp_persistSchedulerCancelRecord hallow hread hval
      (.registered schedulerJobId provider ownershipVerified _ _ hfind hcand)
      (fun _ h => h) (fun h => ?_) hsame
    exact (wp_pure _).2 ⟨hallow, h⟩
  · simp only
    refine wp_cases (fun _ => ?_) fun href => ?_
    · refine (wp_pure _).2 ⟨hallow, .known r schedulerJobId hread ?_⟩
      rw [hfind]
      exact by rintro ⟨⟩
    · rw [not_or, not_not, Bool.not_eq_false] at href
      obtain ⟨href, rfl⟩ := href
      simp only [wp_bind, wp_utcNow]
      refine wp_persistSchedulerCancelRecord hallow hread hval
        (.reinstated schedulerJobId provider _ _ _ existing hfind href hcand)
        (fun _ h => h) (fun h => ?_) hsame
      exact (wp_pure _).2 ⟨hallow, h⟩

/-- Finalizing the identities of a job ends no claim and registers no identity. -/
theorem finalizeSchedulerCancelIdentities_ends (hquiet : A .quiet) (jobId : DurableRecordId)
    (cluster : String) : CancelEnds A (finalizeSchedulerCancelIdentities jobId cluster) fun _ => .quiet := by
  intro s v
  have hsame : ∀ _ : RelayError, CancelWrite s .quiet s := fun _ => .same
  unfold finalizeSchedulerCancelIdentities
  rw [wp_bind]
  refine wp_requireSchedulerCancelPending (fun r hcl hj hread hval => ?_) hsame
  refine wp_require_then (fun hsome => ?_) fun _ => .same
  rw [wp_bind, wp_utcNow]
  have hne : r.dispositions ≠ [] := by simpa using hsome
  exact wp_persistSchedulerCancelRecord hquiet hread hval (.finalized _ hne) (fun _ h => h)
    (fun h => ⟨hquiet, h⟩) hsame

/-- Completing the scan of the identities of a job ends no claim and registers no identity. -/
theorem completeSchedulerCancelIdentityScan_ends (hquiet : A .quiet) (jobId : DurableRecordId)
    (cluster : String) (superseded : Bool) :
    CancelEnds A (completeSchedulerCancelIdentityScan jobId cluster superseded) fun _ => .quiet := by
  intro s v
  have hsame : ∀ _ : RelayError, CancelWrite s .quiet s := fun _ => .same
  unfold completeSchedulerCancelIdentityScan
  rw [wp_bind]
  refine wp_requireSchedulerCancelPending (fun r hcl hj hread hval => ?_) hsame
  refine wp_cases (fun _ => (wp_pure _).2 ⟨hquiet, .same⟩) fun hopen => ?_
  rw [wp_bind, wp_utcNow]
  rcases superseded with _ | _
  · have hnone : r.dispositions = [] := by simpa using hopen
    exact wp_persistSchedulerCancelRecord hquiet hread hval (.closed _ hnone) (fun _ h => h)
      (fun h => ⟨hquiet, h⟩) hsame
  · exact wp_persistSchedulerCancelRecord hquiet hread hval (.superseded _) (fun _ h => h)
      (fun h => ⟨hquiet, h⟩) hsame

/-- **Claiming.**  A claim is of a due disposition and expires after it is made. -/
theorem claimSchedulerCancel_ends (kind : ClaimKind) (jobId : DurableRecordId)
    (cluster schedulerJobId provider : String) (leaseSeconds : ℚ) (now : Option Time)
    (hquiet : A .quiet) (hallow : ∀ claim : SchedulerCancelClaim, claim.provider = provider →
      A (.issued kind ⟨cluster, jobId, schedulerJobId⟩ claim)) :
    CancelEnds A (claimSchedulerCancel kind jobId cluster schedulerJobId provider leaseSeconds now)
      (claimLabel kind ⟨cluster, jobId, schedulerJobId⟩) := by
  intro s v
  have hsame : ∀ _ : RelayError, CancelWrite s .quiet s := fun _ => .same
  unfold claimSchedulerCancel
  refine wp_require_then (fun hprov => ?_) fun _ => .same
  refine wp_require_then (fun hlease => ?_) fun _ => .same
  rw [wp_bind]
  refine wp_observedNow fun observedAt w => ?_
  rw [wp_bind]
  refine wp_openSchedulerCancel
    (fun t ht => ⟨.ended hquiet (.dropped ht), (wp_pure _).2 ⟨hquiet, .dropped ht⟩⟩)
    (fun r hcl hj hread hval => ?_) hsame
  subst hcl hj
  refine wp_cases (fun _ => (wp_pure _).2 ⟨hquiet, .same⟩) fun hresolved => ?_
  rw [not_not] at hresolved
  rw [wp_bind]
  refine wp_registeredDisposition (fun current hfound => ?_) hsame
  refine wp_cases (fun _ => (wp_pure _).2 ⟨hquiet, .same⟩) fun hdue => ?_
  rw [Bool.not_eq_false] at hdue
  rw [wp_bind, requireProvider, wp_require]
  refine ⟨fun hknown => ?_, fun _ => .same⟩
  rw [wp_bind]
  refine (readOnly_newId kind.tag).wp (fun claimId w => ?_) fun e _ => hsame e
  refine wp_ofExcept_then (fun expiresAt hexpiry => ?_) fun e _ => hsame e
  rw [wp_bind]
  have hexp : observedAt < expiresAt := by
    rw [addTimedelta_ok hexpiry]
    rw [Bool.and_eq_true, decide_eq_true_eq] at hlease
    have hpos := timedelta_pos hlease.1
    exact Int.lt_add_of_pos_right _ hpos
  have hsameProvider : ∀ known, current.provider = some known → known = provider := by
    intro known hsome
    rw [hsome] at hknown
    simpa using hknown
  have hissue := hallow ⟨claimId, schedulerJobId, provider, kind.count current + 1, observedAt,
    expiresAt⟩ rfl
  exact wp_persistSchedulerCancelRecord hissue hread hval
    (.issued kind current ⟨claimId, schedulerJobId, provider, kind.count current + 1, observedAt,
      expiresAt⟩ hresolved hfound hdue (by simpa using hprov) hsameProvider hexp)
    (fun _ h => h) (fun h => (wp_pure _).2 ⟨hissue, h⟩) hsame

/-- **Recording.**  A record is accepted under the claim the disposition holds. -/
theorem recordSchedulerCancel_ends (kind : ClaimKind) (jobId : DurableRecordId)
    (cluster schedulerJobId provider : String) (claimId : DurableRecordId) (now : Option Time)
    {recorded : SchedulerCancelDisposition → Time → Except RelayError SchedulerCancelDisposition}
    (hrecorded : ∀ current time item, recorded current time = .ok item →
      kind.Recorded current item) (hquiet : A .quiet)
    (hallow : A (.accepted kind ⟨cluster, jobId, schedulerJobId⟩ claimId)) :
    CancelEnds A (recordSchedulerCancel kind jobId cluster schedulerJobId provider claimId now
      recorded) (recordLabel kind ⟨cluster, jobId, schedulerJobId⟩ claimId) := by
  intro s v
  have hsame : ∀ _ : RelayError, CancelWrite s .quiet s := fun _ => .same
  unfold recordSchedulerCancel
  rw [wp_bind]
  refine wp_observedNow fun observedAt w => ?_
  rw [wp_bind]
  refine wp_openSchedulerCancel
    (fun t ht => ⟨.ended hquiet (.dropped ht), (wp_pure _).2 ⟨hquiet, .dropped ht⟩⟩)
    (fun r hcl hj hread hval => ?_) hsame
  subst hcl hj
  rw [wp_bind]
  refine wp_registeredDisposition (fun current hfound => ?_) hsame
  refine wp_cases (fun _ => (wp_pure _).2 ⟨hquiet, .same⟩) fun hclaim => ?_
  rw [not_not] at hclaim
  rw [wp_bind, requireProvider, wp_require]
  refine ⟨fun _ => ?_, fun _ => .same⟩
  refine wp_ofExcept_then (fun item hitem => ?_) fun e _ => hsame e
  rw [wp_bind]
  exact wp_persistSchedulerCancelRecord hallow hread hval
    (.accepted kind schedulerJobId claimId current item observedAt hfound hclaim
      (hrecorded current observedAt item hitem))
    (fun _ h => h) (fun h => (wp_pure _).2 ⟨hallow, h⟩) hsame

omit [Entropy] in
/-- A scan drops the pending files whose completed record is there. -/
theorem wp_dropCompleted (hquiet : A .quiet) {t : Store} {record : SchedulerCancelPending}
    (h : CancelDropped s t) : wp (dropCompleted record) (CancelLeft A s) (fun _ u _ => CancelDropped s u)
      (fun _ u _ => CancelDropped s u) t v := by
  rw [dropCompleted, wp_bind]
  refine wp_readSchedulerCancelDisposition (fun _ => (wp_pure _).2 h) (fun r hread _ => ?_)
    fun _ => h
  refine wp_require_then (fun _ => ?_) fun _ => h
  rw [wp_bind, wp_unlink]
  have hdrop : CancelDropped s (t.unlink (cancelPendingFile record.cluster record.jobId)) :=
    h.unlink (by rw [hread]; rfl)
  exact ⟨.ended hquiet (.dropped hdrop), (wp_pure _).2 hdrop⟩

/-- Scanning for due cancellations ends no claim and registers no identity. -/
theorem scanDueSchedulerCancellations_ends (hquiet : A .quiet) (cluster : String) (limit : Int)
    (now : Option Time) : CancelEnds A (scanDueSchedulerCancellations cluster limit now) fun _ => .quiet := by
  intro s v
  have hsame : ∀ _ : RelayError, CancelWrite s .quiet s := fun _ => .same
  unfold scanDueSchedulerCancellations
  refine wp_require_then (fun _ => ?_) fun _ => .same
  rw [wp_bind]
  refine readOnly_requireIndexMigrationComplete.wp (fun _ w => ?_) fun e _ => hsame e
  rw [wp_bind, wp_listing, wp_bind]
  refine (Prog.ReadOnly.gather _ fun _ _ => .bind (.ofExcept _) fun _ => .guard <| .pure _).wp
    (fun records w => ?_) fun e _ => hsame e
  rw [wp_bind]
  -- the loop invariant: only completed work has been dropped
  refine wp_mono (wp_gather (fun _ _ t _ => CancelDropped s t) dropCompleted
    (fun _ _ _ t w ht => wp_dropCompleted hquiet ht) records [] s w (CancelDropped.refl s))
    (fun _ h => h) (fun active t w ht => ?_) fun _ t w ht => .dropped ht
  rw [wp_bind]
  exact wp_observedNow fun _ _ => (wp_pure _).2 ⟨hquiet, .dropped ht⟩

/-- A call of a scheduler cancellation operation. -/
inductive CancelCall where
  | ensurePending (jobId : DurableRecordId) (reason : String)
  | registerIdentityOnce (jobId : DurableRecordId) (cluster schedulerJobId : String)
      (provider : Option String) (ownershipVerified : Bool)
  | finalizeIdentities (jobId : DurableRecordId) (cluster : String)
  | completeIdentityScan (jobId : DurableRecordId) (cluster : String) (superseded : Bool)
  | claimAttempt (jobId : DurableRecordId) (cluster schedulerJobId provider : String)
      (leaseSeconds : ℚ) (now : Option Time)
  | recordAttempt (jobId : DurableRecordId) (cluster schedulerJobId provider : String)
      (claimId : DurableRecordId) (accepted : Bool) (error : Option String) (maxAttempts : Int)
      (retryDelaySeconds : ℚ) (now : Option Time)
  | claimConfirmation (jobId : DurableRecordId) (cluster schedulerJobId provider : String)
      (leaseSeconds : ℚ) (now : Option Time)
  | recordObservation (jobId : DurableRecordId) (cluster schedulerJobId provider : String)
      (claimId : DurableRecordId) (phase : SchedulerPhase) (notFound : Bool)
      (error : Option String) (maxConfirmationAttempts : Int) (retryDelaySeconds : ℚ)
      (now : Option Time)
  | scanDue (cluster : String) (limit : Int) (now : Option Time)

/-- What a call runs, with what it did as its result. -/
def CancelCall.prog : CancelCall → Op CancelLabel
  | .ensurePending jobId reason =>
    ensureSchedulerCancelPending jobId reason >>= fun _ => pure .quiet
  | .registerIdentityOnce jobId cluster schedulerJobId provider ownershipVerified =>
    registerSchedulerCancelIdentityOnce jobId cluster schedulerJobId provider
      ownershipVerified >>= fun _ => pure (.registered ⟨cluster, jobId, schedulerJobId⟩)
  | .finalizeIdentities jobId cluster =>
    finalizeSchedulerCancelIdentities jobId cluster >>= fun _ => pure .quiet
  | .completeIdentityScan jobId cluster superseded =>
    completeSchedulerCancelIdentityScan jobId cluster superseded >>= fun _ => pure .quiet
  | .claimAttempt jobId cluster schedulerJobId provider leaseSeconds now =>
    claimSchedulerCancelAttempt jobId cluster schedulerJobId provider leaseSeconds
      now >>= fun claim => pure (claimLabel .attempt ⟨cluster, jobId, schedulerJobId⟩ claim)
  | .recordAttempt jobId cluster schedulerJobId provider claimId accepted error maxAttempts
      retryDelaySeconds now =>
    recordSchedulerCancelAttempt jobId cluster schedulerJobId provider claimId accepted error
      maxAttempts retryDelaySeconds now >>= fun record =>
        pure (recordLabel .attempt ⟨cluster, jobId, schedulerJobId⟩ claimId record)
  | .claimConfirmation jobId cluster schedulerJobId provider leaseSeconds now =>
    claimSchedulerCancelConfirmation jobId cluster schedulerJobId provider leaseSeconds
      now >>= fun claim => pure (claimLabel .confirmation ⟨cluster, jobId, schedulerJobId⟩ claim)
  | .recordObservation jobId cluster schedulerJobId provider claimId phase notFound error
      maxConfirmationAttempts retryDelaySeconds now =>
    recordSchedulerCancelObservation jobId cluster schedulerJobId provider claimId phase notFound
      error maxConfirmationAttempts retryDelaySeconds now >>= fun record =>
        pure (recordLabel .confirmation ⟨cluster, jobId, schedulerJobId⟩ claimId record)
  | .scanDue cluster limit now =>
    scanDueSchedulerCancellations cluster limit now >>= fun _ => pure .quiet

section

omit [Platform] [Entropy]

theorem CancelEnds.labelled {α : Type} {m : Op α} {label : α → CancelLabel}
    (h : CancelEnds A m label) : CancelEnds A (m >>= fun a => pure (label a)) id := by
  intro s v
  exact wp_then (h s v) fun _ _ _ ht => (wp_pure _).2 ht

/-- What a call may do. -/
def CancelCall.Permits : CancelCall → CancelLabel → Prop
  | .registerIdentityOnce jobId cluster schedulerJobId _ _, label =>
    label = .quiet ∨ label = .registered ⟨cluster, jobId, schedulerJobId⟩
  | .claimAttempt jobId cluster schedulerJobId provider _ _, label =>
    label = .quiet ∨ ∃ claim : SchedulerCancelClaim, claim.provider = provider ∧
      label = .issued .attempt ⟨cluster, jobId, schedulerJobId⟩ claim
  | .recordAttempt jobId cluster schedulerJobId _ claimId _ _ _ _ _, label =>
    label = .quiet ∨ label = .accepted .attempt ⟨cluster, jobId, schedulerJobId⟩ claimId
  | .claimConfirmation jobId cluster schedulerJobId provider _ _, label =>
    label = .quiet ∨ ∃ claim : SchedulerCancelClaim, claim.provider = provider ∧
      label = .issued .confirmation ⟨cluster, jobId, schedulerJobId⟩ claim
  | .recordObservation jobId cluster schedulerJobId _ claimId _ _ _ _ _ _, label =>
    label = .quiet ∨ label = .accepted .confirmation ⟨cluster, jobId, schedulerJobId⟩ claimId
  | _, label => label = .quiet

theorem CancelCall.permits_quiet (call : CancelCall) : call.Permits .quiet := by
  cases call <;> first | rfl | exact .inl rfl

theorem CancelCall.Permits.registration {call : CancelCall} {key : CancelKey}
    (h : call.Permits (.registered key)) : ∃ provider verified,
      call = .registerIdentityOnce key.jobId key.cluster key.schedulerJobId provider verified := by
  cases call with
  | registerIdentityOnce jobId cluster schedulerJobId provider verified =>
    rcases h with h | h
    · cases h
    · cases h
      exact ⟨provider, verified, rfl⟩
  | recordAttempt | recordObservation => rcases h with h | h <;> cases h
  | claimAttempt | claimConfirmation => rcases h with h | ⟨_, _, h⟩ <;> cases h
  | ensurePending | finalizeIdentities | completeIdentityScan | scanDue => cases h

end

/-- **What a call does**, for every call. -/
theorem CancelCall.ends (call : CancelCall) : CancelEnds call.Permits call.prog id := by
  have hquiet := call.permits_quiet
  cases call with
  | ensurePending jobId reason =>
    exact CancelEnds.labelled (ensureSchedulerCancelPending_ends hquiet jobId reason)
  | registerIdentityOnce jobId cluster schedulerJobId provider ownershipVerified =>
    exact CancelEnds.labelled (registerSchedulerCancelIdentityOnce_ends jobId cluster
      schedulerJobId provider ownershipVerified (.inr rfl))
  | finalizeIdentities jobId cluster =>
    exact CancelEnds.labelled (finalizeSchedulerCancelIdentities_ends hquiet jobId cluster)
  | completeIdentityScan jobId cluster superseded =>
    exact CancelEnds.labelled
      (completeSchedulerCancelIdentityScan_ends hquiet jobId cluster superseded)
  | claimAttempt jobId cluster schedulerJobId provider leaseSeconds now =>
    exact CancelEnds.labelled (claimSchedulerCancel_ends .attempt jobId cluster schedulerJobId
      provider leaseSeconds now (.inl rfl) fun claim h => .inr ⟨claim, h, rfl⟩)
  | recordAttempt jobId cluster schedulerJobId provider claimId accepted error maxAttempts
      retryDelaySeconds now =>
      exact CancelEnds.labelled (recordSchedulerCancel_ends .attempt jobId cluster schedulerJobId
        provider claimId now (fun _ _ _ h => attemptRecorded_ok h) (.inl rfl) (.inr rfl))
  | claimConfirmation jobId cluster schedulerJobId provider leaseSeconds now =>
    exact CancelEnds.labelled (claimSchedulerCancel_ends .confirmation jobId cluster
      schedulerJobId provider leaseSeconds now (.inl rfl) fun claim h => .inr ⟨claim, h, rfl⟩)
  | recordObservation jobId cluster schedulerJobId provider claimId phase notFound error
      maxConfirmationAttempts retryDelaySeconds now =>
      exact CancelEnds.labelled (recordSchedulerCancel_ends .confirmation jobId cluster
        schedulerJobId provider claimId now (fun _ _ _ h => observationRecorded_ok h) (.inl rfl)
        (.inr rfl))
  | scanDue cluster limit now =>
    exact CancelEnds.labelled (scanDueSchedulerCancellations_ends hquiet cluster limit now)

/-- What a call did, `quiet` when it raised. -/
def CancelCall.did (call : CancelCall) (s : Store) (v : Supply) : CancelLabel :=
  match (call.prog.run s v).result with
  | .ok label => label
  | .error _ => .quiet

/-- **A call that runs to its end** does what it says. -/
theorem CancelCall.write_of_run (call : CancelCall) (s : Store) (v : Supply) :
    CancelWrite s (call.did s v) (call.prog.run s v).store := by
  have h := (call.ends s v).2
  unfold CancelCall.did
  rcases hres : (call.prog.run s v).result with e | _
  · rw [hres] at h
    exact h
  · rw [hres] at h
    exact h.2

/-- **A call that is stopped**, or runs to its end. -/
theorem CancelCall.left_of_halts {call : CancelCall} {s t : Store} {v : Supply}
    (h : t ∈ call.prog.halts s v) : CancelLeft call.Permits s t := by
  have hquiet := call.permits_quiet
  refine wp_halts (I := CancelLeft call.Permits s) ?_ (.ended hquiet .same) t h
  exact wp_mono (call.ends s v) (fun _ h => h) (fun _ _ _ ht => .ended ht.1 ht.2)
    fun _ _ _ ht => .ended hquiet ht

end

/-- A call of some worker, stopped after one of its durable writes or run to its end. -/
def CancelCall.Step [Platform] (s t : Store) : Prop :=
  ∃ (_ : Entropy) (call : CancelCall) (v : Supply), t ∈ call.prog.halts s v

/-! ### A sample queue -/

/-- A migrated queue with one job. -/
def sampleCancelQueue : Store :=
  (Files.empty.write .migrationState ⟨true, true, true, true, none, 0, 0⟩).write
    (.job sampleJob.jobId) sampleJob

theorem noCancellation_sampleCancelQueue : NoCancellation sampleCancelQueue := by
  intro _ _
  unfold sampleCancelQueue
  refine ⟨?_, ?_⟩ <;> rw [Files.read_write_ne _, Files.read_write_ne _, Files.read_empty]

/-- A scheduler identity of the sample job. -/
def sampleCancelKey : CancelKey where
  cluster := "ares"
  jobId := sampleJob.jobId
  schedulerJobId := "77"

/-- A cancellation request, with one identity, ready to be claimed. -/
def sampleCancelRequest : List CancelCall :=
  [.ensurePending sampleJob.jobId "operator_request",
    .registerIdentityOnce sampleJob.jobId "ares" "77" (some "slurm") true,
    .finalizeIdentities sampleJob.jobId "ares"]

/-- A call on the sample platform that is stopped after a number of durable writes, or
runs to its end. -/
def CancelCall.stopped (call : CancelCall) (writes : Nat) (s : Store) : Store :=
  let m := @CancelCall.prog samplePlatform sampleEntropy call
  (m.halts s sampleSupply).getD writes (m.run s sampleSupply).store

theorem CancelCall.stopped_mem_halts (call : CancelCall) (writes : Nat) (s : Store) :
    call.stopped writes s ∈
      (@CancelCall.prog samplePlatform sampleEntropy call).halts s sampleSupply := by
  unfold CancelCall.stopped
  rw [List.getD_eq_getElem?_getD]
  rcases hget : ((@CancelCall.prog samplePlatform sampleEntropy call).halts s
      sampleSupply)[writes]? with _ | t
  · exact List.mem_append_right _ (.head _)
  · exact List.mem_of_getElem? hget

theorem CancelCall.step_stopped (call : CancelCall) (writes : Nat) (s : Store) :
    @CancelCall.Step samplePlatform s (call.stopped writes s) :=
  ⟨sampleEntropy, call, sampleSupply, call.stopped_mem_halts writes s⟩

end ClioQueue
