/-
# One scheduler identity

The disposition of one scheduler identity lies in the pending record of its job
or, once the record is complete, in the completed one (`identityView`).
`CancelWrite.identity` reduces every call that runs to its end to what it does to
one identity (`IdentityStep`).
-/

import ClioQueue.SchedulerCancelSteps

namespace ClioQueue

variable {label : CancelLabel} {A : CancelLabel → Prop} {claimId : Option DurableRecordId}
  {claimedAt expiresAt : Option Time} {d : SchedulerCancelDisposition} {s t : Store}

open Durable Durable.Files

/-! ### Looking up a disposition -/

namespace SchedulerCancelPending

variable {d : SchedulerCancelDisposition} {r : SchedulerCancelPending} {sid : String}

/-- The identity that is replaced, and the others. -/
theorem find?_replaced (item : SchedulerCancelDisposition) (sid : String)
    (ds : List SchedulerCancelDisposition) :
    (replaced item ds).find? (fun d => d.schedulerJobId = sid) = if item.schedulerJobId = sid then
        (ds.find? fun d => d.schedulerJobId = sid).map fun _ => item
      else ds.find? fun d => d.schedulerJobId = sid := by
  induction ds with
  | nil => simp [replaced]
  | cons d ds ih =>
    rw [replaced]
    by_cases hitem : d.schedulerJobId = item.schedulerJobId
    · rw [if_pos hitem]
      by_cases hsid : item.schedulerJobId = sid
      all_goals simp [hitem, hsid]
    · rw [if_neg hitem]
      by_cases hsid : d.schedulerJobId = sid
      · have hother : item.schedulerJobId ≠ sid := fun h => hitem (hsid.trans h.symm)
        simp [hsid, hother]
      · rw [List.find?_cons_of_neg (by simpa using hsid),
          List.find?_cons_of_neg (by simpa using hsid), ih]

/-- A disposition without claims keeps its identity. -/
theorem find?_unclaimed (sid : String) (ds : List SchedulerCancelDisposition) :
    (ds.map SchedulerCancelDisposition.unclaimed).find? (fun d => d.schedulerJobId = sid) =
      (ds.find? fun d => d.schedulerJobId = sid).map SchedulerCancelDisposition.unclaimed := by
  rw [List.find?_map]
  rfl

theorem find_valid (hval : r.Valid) (hfind : r.find sid = some d) : d.Valid :=
  hval.dispositions d (List.mem_of_find?_eq_some hfind)

theorem find_name (hfind : r.find sid = some d) : d.schedulerJobId = sid := by
  simpa using List.find?_some hfind

end SchedulerCancelPending

/-! ### One identity -/

/-- Where the disposition of an identity lies. -/
inductive IdentityView where
  | absent
  | pending (d : SchedulerCancelDisposition)
  | completed (d : SchedulerCancelDisposition)

/-- The view of a disposition in a record that is or is not complete. -/
def IdentityView.of (complete : Bool) : Option SchedulerCancelDisposition → IdentityView
  | none => .absent
  | some d => if complete then .completed d else .pending d

/-- The disposition of an identity: the completed record counts before the pending one. -/
def identityView (s : Store) (key : CancelKey) : IdentityView :=
  match s.read (cancelDispositionFile key.cluster key.jobId) with
  | some r => .of true (r.find key.schedulerJobId)
  | none =>
    match s.read (cancelPendingFile key.cluster key.jobId) with
    | some r => .of false (r.find key.schedulerJobId)
    | none => .absent

/-- The disposition of a view. -/
def IdentityView.disposition : IdentityView → Option SchedulerCancelDisposition
  | .absent => none
  | .pending d | .completed d => some d

/-- The label issues or accepts a claim of the identity. -/
def CancelLabel.Concerns (key : CancelKey) : CancelLabel → Prop
  | .issued _ key' _ | .accepted _ key' _ => key' = key
  | _ => False

/-- A disposition without a claim. -/
def SchedulerCancelDisposition.Unclaimed (d : SchedulerCancelDisposition) : Prop :=
  ∀ kind : ClaimKind, kind.claimId d = none

/-- `validate_attempt_claim` and `validate_confirmation_claim` pass. -/
structure SchedulerCancelDisposition.ClaimsSound (d : SchedulerCancelDisposition) : Prop where
  attempt : validateClaim d.attemptClaimId d.attemptClaimedAt d.attemptClaimExpiresAt
    (ClaimKind.attempt.claimable d.state) = true
  confirmation : validateClaim d.confirmationClaimId d.confirmationClaimedAt
    d.confirmationClaimExpiresAt (ClaimKind.confirmation.claimable d.state) = true

theorem SchedulerCancelDisposition.Valid.claimsSound (h : d.Valid) :
    d.ClaimsSound := ⟨h.attemptClaim, h.confirmationClaim⟩

/-- A claim is held in a state that may be claimed. -/
theorem validateClaim_claimable {claimable : Bool}
    (h : validateClaim claimId claimedAt expiresAt claimable = true) (hclaim : claimId ≠ none) :
    claimable = true := by
  unfold validateClaim at h
  split at h
  · exact absurd rfl hclaim
  · exact (Bool.and_eq_true_iff.1 h).1
  · cases h

/-- Without a claim the other two fields are missing too. -/
theorem validateClaim_none {claimable : Bool}
    (h : validateClaim claimId claimedAt expiresAt claimable = true) (hst : claimable = false) :
    claimId = none ∧ claimedAt = none ∧ expiresAt = none := by
  unfold validateClaim at h
  split at h
  · exact ⟨rfl, rfl, rfl⟩
  · rw [hst] at h
    cases h
  · cases h

/-- A claim of either kind is held in a state that may be claimed. -/
theorem SchedulerCancelDisposition.ClaimsSound.claimable (h : d.ClaimsSound) (kind : ClaimKind)
    (hclaim : kind.claimId d ≠ none) : kind.claimable d.state = true := by
  rcases kind with _ | _
  · exact validateClaim_claimable h.attempt hclaim
  · exact validateClaim_claimable h.confirmation hclaim

/-- What a call does to one identity. -/
inductive IdentityStep (key : CancelKey) : IdentityView → CancelLabel → IdentityView → Prop
  | stays {view : IdentityView} {label : CancelLabel} (hquiet : ¬ label.Concerns key) :
      IdentityStep key view label view
  | closes {label : CancelLabel} (hquiet : ¬ label.Concerns key) (d : SchedulerCancelDisposition) :
      IdentityStep key (.pending d) label (.completed d)
  | superseded {label : CancelLabel} (hquiet : ¬ label.Concerns key)
      (d : SchedulerCancelDisposition) (hval : d.Valid) :
      IdentityStep key (.pending d) label (.completed d.unclaimed)
  | appears {label : CancelLabel} (hquiet : ¬ label.Concerns key) (complete : Bool)
      (d : SchedulerCancelDisposition) (hval : d.Valid) (hunc : d.Unclaimed)
      (hcnt : ∀ kind : ClaimKind, kind.count d = 0) :
      IdentityStep key .absent label (.of complete (some d))
  | reinstated {label : CancelLabel} (hquiet : ¬ label.Concerns key) (complete : Bool)
      (d d' : SchedulerCancelDisposition) (href : d.state = .refused)
      (hunc : d'.Unclaimed) (hcnt : ∀ kind : ClaimKind, kind.count d' = kind.count d)
      (hval : d.Valid) (hsound : d'.ClaimsSound) :
      IdentityStep key (.pending d) label (.of complete (some d'))
  | issued (kind : ClaimKind) (complete : Bool) (d : SchedulerCancelDisposition)
      (claim : SchedulerCancelClaim) (hval : d.Valid)
      (hdue : kind.due d claim.claimedAt = true) (hexp : claim.claimedAt < claim.expiresAt) :
      IdentityStep key (.pending d) (.issued kind key claim)
        (.of complete (some (kind.claimed d claim.provider claim.claimId claim.claimedAt
          claim.expiresAt)))
  | accepted (kind : ClaimKind) (complete : Bool) (d item : SchedulerCancelDisposition)
      (claimId : DurableRecordId) (hval : d.Valid) (hclaim : kind.claimId d = some claimId)
      (hrecorded : kind.Recorded d item) :
      IdentityStep key (.pending d) (.accepted kind key claimId) (.of complete (some item))

theorem IdentityStep.kept {key : CancelKey} (hquiet : ¬ label.Concerns key) (complete : Bool)
    (found : Option SchedulerCancelDisposition) :
    IdentityStep key (.of false found) label (.of complete found) := by
  rcases found with _ | d
  · exact .stays hquiet
  · rcases complete with _ | _
    · exact .stays hquiet
    · exact .closes hquiet d

/-- A record change, seen from one identity of its job. -/
theorem CancelChange.identity {r r' : SchedulerCancelPending} (h : CancelChange r label r')
    (hval : r.Valid) (sid : String) (complete : Bool)
    (hclosed : r'.identityResolution = .superseded → complete = true) :
    IdentityStep ⟨r.cluster, r.jobId, sid⟩ (.of false (r.find sid)) label
      (.of complete (r'.find sid)) := by
  have hreg : ∀ key', ¬ (CancelLabel.registered key').Concerns
      ⟨r.cluster, r.jobId, sid⟩ := fun _ => id
  have hquiet : ¬ CancelLabel.quiet.Concerns ⟨r.cluster, r.jobId, sid⟩ := id
  -- a replaced disposition concerns its own identity only
  have hreplaced : ∀ (item : SchedulerCancelDisposition) (updatedAt : Time) (sid' : String),
      item.schedulerJobId = sid' → SchedulerCancelPending.find { r with
        dispositions := SchedulerCancelPending.replaced item r.dispositions, updatedAt } sid =
        if sid' = sid then (r.find sid).map fun _ => item else r.find sid := by
    rintro item _ _ rfl
    exact SchedulerCancelPending.find?_replaced item sid r.dispositions
  cases h with
  | registered sid' provider verified createdAt updatedAt hnew hcand =>
    have hfind : SchedulerCancelPending.find { r with
        dispositions := r.dispositions ++
          [registrationCandidate sid' provider verified createdAt], updatedAt } sid =
        (r.find sid).or (if sid' = sid then
          some (registrationCandidate sid' provider verified createdAt) else none) := by
      rw [SchedulerCancelPending.find, List.find?_append, List.find?_singleton]
      simp only [decide_eq_true_eq]
      rfl
    rw [hfind]
    by_cases hsid : sid' = sid
    · subst hsid
      rw [if_pos rfl, hnew]
      refine .appears (hreg _) complete _ hcand ?_ ?_
      all_goals
        intro kind
        cases kind <;> rfl
    · rw [if_neg hsid, Option.or_none]
      exact .kept (hreg _) complete _
  | reinstated sid' provider createdAt replacedAt updatedAt existing hfound href =>
    rw [hreplaced _ _ sid' rfl]
    by_cases hsid : sid' = sid
    · subst hsid
      rw [if_pos rfl, hfound]
      refine .reinstated (hreg _) complete existing _ href ?_ ?_
        (SchedulerCancelPending.find_valid hval hfound) ⟨rfl, rfl⟩
      all_goals
        intro kind
        cases kind <;> rfl
    · rw [if_neg hsid]
      exact .kept (hreg _) complete _
  | finalized | closed => exact .kept hquiet complete (r.find sid)
  | superseded updatedAt =>
    have hfind : SchedulerCancelPending.find { r with
        identityResolution := .superseded
        dispositions := r.dispositions.map SchedulerCancelDisposition.unclaimed
        updatedAt } sid = (r.find sid).map SchedulerCancelDisposition.unclaimed :=
      SchedulerCancelPending.find?_unclaimed sid r.dispositions
    rw [hfind, hclosed rfl]
    rcases hfound : r.find sid with _ | d
    · exact .stays hquiet
    · exact .superseded hquiet d (SchedulerCancelPending.find_valid hval hfound)
  | issued kind current claim hresolved hfound hdue hprov hknown hexp =>
    have hname : (kind.claimed current claim.provider claim.claimId claim.claimedAt
        claim.expiresAt).schedulerJobId = claim.schedulerJobId := by
      rw [← SchedulerCancelPending.find_name hfound]
      cases kind <;> rfl
    rw [hreplaced _ _ _ hname]
    by_cases hsid : claim.schedulerJobId = sid
    · subst hsid
      rw [if_pos rfl, hfound]
      exact .issued kind complete current claim
        (SchedulerCancelPending.find_valid hval hfound) hdue hexp
    · rw [if_neg hsid]
      refine .kept (fun hkey => hsid ?_) complete _
      exact congrArg CancelKey.schedulerJobId hkey
  | accepted kind sid' claimId current item updatedAt hfound hclaim hrecorded =>
    have hname : item.schedulerJobId = sid' := by
      rw [hrecorded.schedulerJobId, SchedulerCancelPending.find_name hfound]
    rw [hreplaced _ _ _ hname]
    by_cases hsid : sid' = sid
    · subst hsid
      rw [if_pos rfl, hfound]
      exact .accepted kind complete current item claimId
        (SchedulerCancelPending.find_valid hval hfound) hclaim hrecorded
    · rw [if_neg hsid]
      refine .kept (fun hkey => hsid ?_) complete _
      exact congrArg CancelKey.schedulerJobId hkey

/-- The two files of a job are never both there. -/
def CancelApart (s : Store) : Prop :=
  ∀ cluster jobId, (s.read (cancelDispositionFile cluster jobId)).isSome →
    s.read (cancelPendingFile cluster jobId) = none

section

variable {s t : Store} {label : CancelLabel}
  {key : CancelKey} {j j' : DurableRecordId} {c c' : String}

theorem cancelPendingFile_inj :
    cancelPendingFile c j = cancelPendingFile c' j' ↔ c = c' ∧ j = j' := by
  simp [cancelPendingFile, stableRefToken]

theorem cancelDispositionFile_inj :
    cancelDispositionFile c j = cancelDispositionFile c' j' ↔ c = c' ∧ j = j' := by
  simp [cancelDispositionFile, stableRefToken]

/-- The completed files survive the removal of pending files. -/
theorem CancelDropped.read_disposition (h : CancelDropped s t) (c : String) (j : DurableRecordId) :
    t.read (cancelDispositionFile c j) = s.read (cancelDispositionFile c j) := by
  rcases h (cancelDispositionFile c j) with hsame | ⟨_, _, hp, _⟩
  · exact hsame
  · cases hp

/-- A pending file is kept, or removed when the completed one is there. -/
theorem CancelDropped.read_pending (h : CancelDropped s t) (c : String) (j : DurableRecordId) :
    t.read (cancelPendingFile c j) = s.read (cancelPendingFile c j) ∨
      (t.read (cancelPendingFile c j) = none ∧
        (s.read (cancelDispositionFile c j)).isSome) := by
  rcases h (cancelPendingFile c j) with hsame | ⟨_, _, hp, hnone, hdone⟩
  · exact .inl hsame
  · obtain ⟨rfl, rfl⟩ := cancelPendingFile_inj.1 hp
    exact .inr ⟨hnone, hdone⟩

/-- The job of a changed record, after it is persisted. -/
theorem read_cancelPersisted_self (r : SchedulerCancelPending) :
    (cancelPersisted s r).read (cancelDispositionFile r.cluster r.jobId) =
        (if r.complete then some r else s.read (cancelDispositionFile r.cluster r.jobId)) ∧
      (cancelPersisted s r).read (cancelPendingFile r.cluster r.jobId) =
        (if r.complete then none else some r) := by
  unfold cancelPersisted
  by_cases hcomp : r.complete = true
  · rw [if_pos hcomp, if_pos hcomp, if_pos hcomp, read_unlink_ne, read_write_self, read_unlink_self]
    exact ⟨rfl, rfl⟩
  · rw [if_neg hcomp, if_neg hcomp, if_neg hcomp, read_write_ne _, read_write_self]
    exact ⟨rfl, rfl⟩

/-- The other files, after a record is persisted. -/
theorem read_cancelPersisted_ne (r : SchedulerCancelPending) {p : Path}
    (hp : p ≠ cancelPendingFile r.cluster r.jobId)
    (hp' : p ≠ cancelDispositionFile r.cluster r.jobId) :
    (cancelPersisted s r).read p = s.read p := by
  unfold cancelPersisted
  split_ifs
  · rw [read_unlink_ne hp, read_write_ne _ hp']
  · rw [read_write_ne _ hp]

theorem CancelChange.concerns {r r' : SchedulerCancelPending} (h : CancelChange r label r')
    (hkey : label.Concerns key) : key.cluster = r.cluster ∧ key.jobId = r.jobId := by
  cases h with
  | issued | accepted =>
    have heq : _ = key := hkey
    subst heq
    exact ⟨rfl, rfl⟩
  | _ => exact hkey.elim

/-- The view of an identity whose two files are read the same. -/
theorem identityView_congr
    (hdone : t.read (cancelDispositionFile key.cluster key.jobId) = s.read (cancelDispositionFile key.cluster key.jobId))
    (hpend : s.read (cancelDispositionFile key.cluster key.jobId) = none → t.read (cancelPendingFile key.cluster key.jobId) = s.read (cancelPendingFile key.cluster key.jobId)) :
    identityView t key = identityView s key := by
  unfold identityView
  rw [hdone]
  rcases hread : s.read (cancelDispositionFile key.cluster key.jobId) with _ | r
  · simp only
    rw [hpend hread]
  · rfl

/-- **What a call does to one identity.** -/
theorem CancelWrite.identity (hapart : CancelApart s) (h : CancelWrite s label t)
    (key : CancelKey) : IdentityStep key (identityView s key) label (identityView t key) := by
  cases h with
  | same | known => exact .stays id
  | dropped h =>
    rw [identityView_congr (h.read_disposition _ _) fun hnone => ?_]
    · exact .stays id
    · rcases h.read_pending key.cluster key.jobId with hsame | ⟨_, hdone⟩
      · exact hsame
      · rw [hnone] at hdone
        cases hdone
  | created record hval hempty hpend hnone hnone' =>
    obtain ⟨cluster, jobId, sid⟩ := key
    by_cases hjob : cluster = record.cluster ∧ jobId = record.jobId
    · obtain ⟨rfl, rfl⟩ := hjob
      have hbefore : identityView s ⟨record.cluster, record.jobId, sid⟩ = .absent := by
        simp only [identityView, hnone', hnone]
      have hafter : identityView (s.write (cancelPendingFile record.cluster record.jobId) record)
          ⟨record.cluster, record.jobId, sid⟩ = .absent := by
        simp only [identityView]
        rw [read_write_ne _, hnone', read_write_self]
        simp only [SchedulerCancelPending.find, hempty]
        rfl
      rw [hbefore, hafter]
      exact .stays id
    · rw [identityView_congr (read_write_ne _) fun _ => read_write_ne _ ?_]
      · exact .stays id
      · exact fun heq => hjob (cancelPendingFile_inj.1 heq)
  | persisted r r' hread hval hchg =>
    obtain ⟨hcl, hj⟩ := hchg.same_job
    obtain ⟨cluster, jobId, sid⟩ := key
    by_cases hjob : cluster = r.cluster ∧ jobId = r.jobId
    · obtain ⟨rfl, rfl⟩ := hjob
      have hnone : s.read (cancelDispositionFile r.cluster r.jobId) = none := by
        rcases hdone : s.read (cancelDispositionFile r.cluster r.jobId) with _ | _
        · rfl
        · have hgone := hapart r.cluster r.jobId (by rw [hdone]; rfl)
          rw [hread] at hgone
          cases hgone
      have hbefore : identityView s ⟨r.cluster, r.jobId, sid⟩ = .of false (r.find sid) := by
        simp only [identityView, hnone, hread]
      have hafter : identityView (cancelPersisted s r') ⟨r.cluster, r.jobId, sid⟩ =
          .of r'.complete (r'.find sid) := by
        have hself := @read_cancelPersisted_self s r'
        rw [hcl, hj, hnone] at hself
        simp only [identityView]
        rw [hself.1, hself.2]
        rcases hcomp : r'.complete with _ | _
        · rfl
        · rfl
      rw [hbefore, hafter]
      refine hchg.identity hval sid r'.complete fun hsuperseded => ?_
      simp [SchedulerCancelPending.complete, hsuperseded]
    · have hother : ¬ label.Concerns ⟨cluster, jobId, sid⟩ := fun hkey =>
        hjob (hchg.concerns hkey)
      rw [← hcl, ← hj] at hjob
      have hpend : cancelPendingFile cluster jobId ≠
          cancelPendingFile r'.cluster r'.jobId := fun heq => hjob (cancelPendingFile_inj.1 heq)
      have hdone : cancelDispositionFile cluster jobId ≠
          cancelDispositionFile r'.cluster r'.jobId :=
        fun heq => hjob (cancelDispositionFile_inj.1 heq)
      rw [identityView_congr (read_cancelPersisted_ne r' (by simp) hdone) fun _ =>
        read_cancelPersisted_ne r' hpend (by simp)]
      exact .stays hother

/-- The two files of a job stay apart while every call runs to its end. -/
theorem CancelWrite.apart (hapart : CancelApart s) (h : CancelWrite s label t) : CancelApart t := by
  intro cluster jobId hdone
  cases h with
  | same | known => exact hapart cluster jobId hdone
  | dropped h =>
    rw [h.read_disposition] at hdone
    rcases h.read_pending cluster jobId with hsame | ⟨hnone, _⟩
    · rw [hsame]
      exact hapart cluster jobId hdone
    · exact hnone
  | created record hval hempty hpend hnone hnone' =>
    rw [read_write_ne _] at hdone
    by_cases hfile : cancelPendingFile cluster jobId = cancelPendingFile record.cluster record.jobId
    · obtain ⟨rfl, rfl⟩ := cancelPendingFile_inj.1 hfile
      rw [hnone'] at hdone
      cases hdone
    · rw [read_write_ne _ hfile]
      exact hapart cluster jobId hdone
  | persisted r r' hread hval hchg =>
    by_cases hjob : cluster = r'.cluster ∧ jobId = r'.jobId
    · obtain ⟨rfl, rfl⟩ := hjob
      obtain ⟨hdone', hpend'⟩ := @read_cancelPersisted_self s r'
      rw [hdone'] at hdone
      rw [hpend']
      rcases hcomp : r'.complete with _ | _
      · rw [hcomp] at hdone
        obtain ⟨hcl, hj⟩ := hchg.same_job
        rw [hcl, hj] at hdone
        have hgone := hapart r.cluster r.jobId hdone
        rw [hread] at hgone
        cases hgone
      · rfl
    · have hpend : cancelPendingFile cluster jobId ≠
          cancelPendingFile r'.cluster r'.jobId := fun heq => hjob (cancelPendingFile_inj.1 heq)
      have hdone' : cancelDispositionFile cluster jobId ≠
          cancelDispositionFile r'.cluster r'.jobId :=
        fun heq => hjob (cancelDispositionFile_inj.1 heq)
      rw [read_cancelPersisted_ne r' (by simp) hdone'] at hdone
      rw [read_cancelPersisted_ne r' hpend (by simp)]
      exact hapart cluster jobId hdone

end

/-! ### One job -/

/-- What a call does to the pending and the completed record of one job, wherever it
stops. -/
inductive CancelJobStep (A : CancelLabel → Prop) (cluster : String) (jobId : DurableRecordId)
    (pending completed : Option SchedulerCancelPending) :
    Option SchedulerCancelPending → Option SchedulerCancelPending → Prop
  | stays : CancelJobStep A cluster jobId pending completed pending completed
  | drops (hdone : completed.isSome) :
      CancelJobStep A cluster jobId pending completed none completed
  | creates (record : SchedulerCancelPending) (hcl : record.cluster = cluster)
      (hj : record.jobId = jobId) (hval : record.Valid) (hempty : record.dispositions = [])
      (hpend : record.identityResolution = .pending) (hnone : pending = none)
      (hnone' : completed = none) :
      CancelJobStep A cluster jobId pending completed (some record) completed
  | changes {label : CancelLabel} (hallow : A label) (r r' : SchedulerCancelPending)
      (hcl : r.cluster = cluster) (hj : r.jobId = jobId) (hread : pending = some r)
      (hval : r.Valid) (hchg : CancelChange r label r') (hcomp : r'.complete = false) :
      CancelJobStep A cluster jobId pending completed (some r') completed
  | finishes {label : CancelLabel} (hallow : A label) (r r' : SchedulerCancelPending)
      (hcl : r.cluster = cluster) (hj : r.jobId = jobId) (hread : pending = some r)
      (hval : r.Valid) (hchg : CancelChange r label r') (hcomp : r'.complete = true) :
      CancelJobStep A cluster jobId pending completed none (some r')
  | tears {label : CancelLabel} (hallow : A label) (r r' : SchedulerCancelPending)
      (hcl : r.cluster = cluster) (hj : r.jobId = jobId) (hread : pending = some r)
      (hval : r.Valid) (hchg : CancelChange r label r') (hcomp : r'.complete = true) :
      CancelJobStep A cluster jobId pending completed pending (some r')

/-- **What a call does to one job**, wherever it stops. -/
theorem CancelLeft.job (h : CancelLeft A s t) (cluster : String) (jobId : DurableRecordId) :
    CancelJobStep A cluster jobId (s.read (cancelPendingFile cluster jobId))
      (s.read (cancelDispositionFile cluster jobId)) (t.read (cancelPendingFile cluster jobId))
      (t.read (cancelDispositionFile cluster jobId)) := by
  cases h with
  | @ended label t hallow h =>
    cases h with
    | same | known => exact .stays
    | dropped h =>
      rw [h.read_disposition]
      rcases h.read_pending cluster jobId with hsame | ⟨hnone, hdone⟩
      · rw [hsame]
        exact .stays
      · rw [hnone]
        exact .drops hdone
    | created record hval hempty hpend hnone hnone' =>
      have hdone : (s.write (cancelPendingFile record.cluster record.jobId) record).read
          (cancelDispositionFile cluster jobId) =
          s.read (cancelDispositionFile cluster jobId) := read_write_ne _
      rw [hdone]
      by_cases hfile : cancelPendingFile cluster jobId =
          cancelPendingFile record.cluster record.jobId
      · obtain ⟨rfl, rfl⟩ := cancelPendingFile_inj.1 hfile
        rw [read_write_self]
        exact .creates record rfl rfl hval hempty hpend hnone hnone'
      · rw [read_write_ne _ hfile]
        exact .stays
    | persisted r r' hread hval hchg =>
      obtain ⟨hcl, hj⟩ := hchg.same_job
      by_cases hjob : cluster = r'.cluster ∧ jobId = r'.jobId
      · obtain ⟨rfl, rfl⟩ := hjob
        obtain ⟨hdone, hpend⟩ := @read_cancelPersisted_self s r'
        rw [hdone, hpend]
        have hread' : s.read (cancelPendingFile r'.cluster r'.jobId) = some r := by
          rw [hcl, hj]
          exact hread
        rcases hcomp : r'.complete with _ | _
        · exact .changes hallow r r' hcl.symm hj.symm hread' hval hchg hcomp
        · exact .finishes hallow r r' hcl.symm hj.symm hread' hval hchg hcomp
      · have hpend : cancelPendingFile cluster jobId ≠ cancelPendingFile r'.cluster r'.jobId :=
          fun heq => hjob (cancelPendingFile_inj.1 heq)
        have hdone : cancelDispositionFile cluster jobId ≠
            cancelDispositionFile r'.cluster r'.jobId :=
          fun heq => hjob (cancelDispositionFile_inj.1 heq)
        rw [read_cancelPersisted_ne r' (by simp) hdone, read_cancelPersisted_ne r' hpend (by simp)]
        exact .stays
  | torn hallow r r' hread hval hchg hcomp =>
    obtain ⟨hcl, hj⟩ := hchg.same_job
    have hpend : (s.write (cancelDispositionFile r'.cluster r'.jobId) r').read
        (cancelPendingFile cluster jobId) = s.read (cancelPendingFile cluster jobId) :=
      read_write_ne _
    rw [hpend]
    by_cases hfile : cancelDispositionFile cluster jobId = cancelDispositionFile r'.cluster r'.jobId
    · obtain ⟨rfl, rfl⟩ := cancelDispositionFile_inj.1 hfile
      rw [read_write_self]
      have hread' : s.read (cancelPendingFile r'.cluster r'.jobId) = some r := by
        rw [hcl, hj]
        exact hread
      exact .tears hallow r r' hcl.symm hj.symm hread' hval hchg hcomp
    · rw [read_write_ne _ hfile]
      exact .stays

/-- A file of another family is left alone. -/
theorem CancelLeft.read_other (h : CancelLeft A s t) {p : Path}
    (hp : ∀ cluster jobId, p ≠ cancelPendingFile cluster jobId)
    (hp' : ∀ cluster jobId, p ≠ cancelDispositionFile cluster jobId) : t.read p = s.read p := by
  rcases h with ⟨hallow, h⟩ | ⟨hallow, r, r', _, _, _, _⟩
  · cases h with
    | same => rfl
    | known => rfl
    | dropped h =>
      rcases h p with hsame | ⟨cluster, jobId, heq, _⟩
      · exact hsame
      · exact absurd heq (hp cluster jobId)
    | created => exact read_write_ne _ (hp _ _)
    | persisted r r' => exact read_cancelPersisted_ne r' (hp _ _) (hp' _ _)
  · exact read_write_ne _ (hp' _ _)

end ClioQueue
