/-
# The hand-over of a completed cancellation

A record moves from the pending to the completed file of its job in two durable
steps, and the calls disagree on which file they consult first: registration reads
the pending one, claims and scans drop the pending one when the completed one is
there.  As long as no identity is registered beside a completed record
(`CancelCall.Timely`), the two files list the same identities whenever both are
there (`CancelHandover`), so that no registered identity is lost
(`identity_kept_of_run`), wherever the calls are stopped.
-/

import ClioQueue.SchedulerCancelIdentity

namespace ClioQueue

open Durable

/-! ### Identities of a record -/

namespace SchedulerCancelPending

/-- The record lists a scheduler identity. -/
def lists (r : SchedulerCancelPending) (sid : String) : Bool := (r.find sid).isSome

/-- A record with cancellation work left. -/
structure Unfinished (r : SchedulerCancelPending) : Prop where
  incomplete : r.complete = false
  resolved : r.identityResolution = .resolved → r.dispositions ≠ []

/-- A record without cancellation work left. -/
structure Finished (r : SchedulerCancelPending) : Prop where
  complete : r.complete = true
  empty : r.identityResolution = .none → r.dispositions = []

theorem Unfinished.open_resolution {r : SchedulerCancelPending} (h : r.Unfinished) :
    r.identityResolution = .pending ∨ r.identityResolution = .resolved := by
  have hcomp := h.incomplete
  cases hres : r.identityResolution with
  | pending => exact .inl rfl
  | resolved => exact .inr rfl
  | none | superseded => simp [SchedulerCancelPending.complete, hres] at hcomp

/-- A listed identity of a finished record is settled, unless the scan was superseded. -/
theorem Finished.settled {r : SchedulerCancelPending} (h : r.Finished) {sid : String}
    {d : SchedulerCancelDisposition} (hfind : r.find sid = some d) :
    d.state.settled = true ∨ r.identityResolution = .superseded := by
  have hmem : d ∈ r.dispositions := List.mem_of_find?_eq_some hfind
  have hcomp := h.complete
  cases hres : r.identityResolution with
  | pending => simp [SchedulerCancelPending.complete, hres] at hcomp
  | resolved =>
    simp only [SchedulerCancelPending.complete, hres, Bool.and_eq_true, List.all_eq_true,
      reduceCtorEq, decide_false, Bool.false_or, decide_true] at hcomp
    exact .inl (hcomp.2 d hmem)
  | none =>
    rw [h.empty hres] at hmem
    exact absurd hmem List.not_mem_nil
  | superseded => exact .inr rfl

/-- Replacing a disposition keeps the identities. -/
theorem lists_replaced (r : SchedulerCancelPending) {item : SchedulerCancelDisposition}
    (updatedAt : Time) (sid : String) :
    lists { r with dispositions := replaced item r.dispositions, updatedAt } sid = r.lists sid := by
  unfold lists
  have hfind : find { r with dispositions := replaced item r.dispositions, updatedAt } sid =
      if item.schedulerJobId = sid then (r.find sid).map fun _ => item else r.find sid :=
    find?_replaced item sid r.dispositions
  rw [hfind]
  split_ifs
  · rw [Option.isSome_map]
  · rfl

theorem replaced_ne_nil {item : SchedulerCancelDisposition} {ds : List SchedulerCancelDisposition}
    (h : ds ≠ []) : replaced item ds ≠ [] := by
  rcases ds with _ | ⟨d, ds⟩
  · exact absurd rfl h
  · rw [replaced]
    split_ifs <;> exact List.cons_ne_nil _ _

end SchedulerCancelPending

section

variable {r r' : SchedulerCancelPending} {label : CancelLabel}

section

variable (h : CancelChange r label r')

include h

/-- **The identities after a change**: those before it, and the one it registers. -/
theorem CancelChange.lists_eq (sid : String) :
    r'.lists sid = (r.lists sid || decide (label = .registered ⟨r.cluster, r.jobId, sid⟩)) := by
  cases h with
  | registered sid' provider verified createdAt updatedAt =>
    have hfind : SchedulerCancelPending.lists { r with
        dispositions := r.dispositions ++
          [registrationCandidate sid' provider verified createdAt], updatedAt } sid =
        (r.lists sid || decide (sid' = sid)) := by
      unfold SchedulerCancelPending.lists SchedulerCancelPending.find
      rw [List.find?_append, List.find?_singleton, Option.isSome_or]
      congr 1
      simp only [registrationCandidate]
      by_cases hsid : sid' = sid <;> simp [hsid]
    rw [hfind]
    simp
  | reinstated sid' provider createdAt replacedAt updatedAt existing hfound =>
    rw [SchedulerCancelPending.lists_replaced]
    by_cases hsid : sid' = sid
    · subst hsid
      simp [SchedulerCancelPending.lists, hfound]
    · simp [hsid]
  | finalized | closed => exact (Bool.or_false _).symm
  | superseded updatedAt =>
    have hfind : SchedulerCancelPending.lists { r with
        identityResolution := .superseded
        dispositions := r.dispositions.map SchedulerCancelDisposition.unclaimed
        updatedAt } sid = r.lists sid := by
      unfold SchedulerCancelPending.lists SchedulerCancelPending.find
      rw [SchedulerCancelPending.find?_unclaimed, Option.isSome_map]
    rw [hfind]
    exact (Bool.or_false _).symm
  | issued | accepted =>
    rw [SchedulerCancelPending.lists_replaced]
    exact (Bool.or_false _).symm

/-- A change keeps the identities of a record. -/
theorem CancelChange.lists_of {sid : String} (hsid : r.lists sid = true) : r'.lists sid = true := by
  rw [h.lists_eq, hsid, Bool.true_or]

/-- A change that registers nothing new keeps exactly the identities of a record. -/
theorem CancelChange.lists_same
    (hold : ∀ sid, label = .registered ⟨r.cluster, r.jobId, sid⟩ → r.lists sid = true)
    (sid : String) : r'.lists sid = r.lists sid := by
  rw [h.lists_eq]
  by_cases hlab : label = .registered ⟨r.cluster, r.jobId, sid⟩
  · rw [hold sid hlab, Bool.true_or]
  · rw [decide_eq_false hlab, Bool.or_false]

/-- A registration leaves work to do: a record that is resolved has an identity that is
not settled. -/
theorem CancelChange.registered_incomplete (hr : r.Unfinished)
    (hcomp : r'.complete = true) (sid : String)
    (hlab : label = .registered ⟨r.cluster, r.jobId, sid⟩) : r.lists sid = true := by
  cases h with
  | registered =>
    have hinc := hr.incomplete
    rcases hr.open_resolution with hres | hres
    · simp [SchedulerCancelPending.complete, hres] at hcomp
    · have hne := hr.resolved hres
      simp only [SchedulerCancelPending.complete, hres, List.all_append, Bool.and_eq_true,
        reduceCtorEq, decide_false, Bool.false_or, decide_true, Bool.true_and]
        at hcomp hinc
      have hsome : r.dispositions.isEmpty = false := by simpa using hne
      rw [hsome, hcomp.2.1] at hinc
      cases hinc
  | reinstated sid' provider createdAt replacedAt updatedAt existing hfound =>
    injection hlab with hkey
    injection hkey with _ _ hsid
    subst hsid
    simp [SchedulerCancelPending.lists, hfound]
  | _ => cases hlab

/-- Work that is left after a change is pending or has identities. -/
theorem CancelChange.unfinished (hr : r.Unfinished)
    (hcomp : r'.complete = false) : r'.Unfinished := by
  refine ⟨hcomp, fun hres => ?_⟩
  cases h with
  | registered =>
    exact List.append_ne_nil_of_right_ne_nil _ (List.cons_ne_nil _ _)
  | reinstated | issued | accepted =>
    exact SchedulerCancelPending.replaced_ne_nil (hr.resolved hres)
  | finalized updatedAt hsome => exact hsome
  | closed | superseded => cases hres

theorem CancelChange.finished (hr : r.Unfinished) (hcomp : r'.complete = true) : r'.Finished := by
  refine ⟨hcomp, fun hres => ?_⟩
  have hopen : r.identityResolution ≠ .none := by
    rcases hr.open_resolution with h | h <;> rw [h] <;> exact nofun
  cases h with
  | closed updatedAt hnone => exact hnone
  | finalized | superseded => cases hres
  | _ => exact absurd hres hopen

end

end

/-! ### The hand-over -/

/-- The two records of a job agree. -/
structure CancelJobAgrees (pending completed : Option SchedulerCancelPending) : Prop where
  work : ∀ r, pending = some r → r.Unfinished
  done : ∀ r, completed = some r → r.Finished
  same : ∀ r r', pending = some r → completed = some r' → ∀ sid, r'.lists sid = r.lists sid

/-- An identity is in the pending record of its job, or settled in the completed one. -/
def ListedIn (sid : String) (pending completed : Option SchedulerCancelPending) : Prop :=
  (∃ r, pending = some r ∧ r.lists sid = true) ∨
    ∃ r d, completed = some r ∧ r.find sid = some d ∧
      (d.state.settled = true ∨ r.identityResolution = .superseded)

/-- The two records of every job agree. -/
def CancelHandover (s : Store) : Prop :=
  ∀ cluster jobId, CancelJobAgrees (s.read (cancelPendingFile cluster jobId))
    (s.read (cancelDispositionFile cluster jobId))

/-- An identity is in one of the two records of its job. -/
def IdentityKept (s : Store) (key : CancelKey) : Prop :=
  ListedIn key.schedulerJobId (s.read (cancelPendingFile key.cluster key.jobId))
    (s.read (cancelDispositionFile key.cluster key.jobId))

section

variable {A : CancelLabel → Prop} {cluster : String} {jobId : DurableRecordId}
  {pending completed pending' completed' : Option SchedulerCancelPending}
  {r : SchedulerCancelPending} {sid : String}

/-- A listed identity of a finished record is kept there. -/
theorem listedIn_finished (hr : r.Finished) (hsid : r.lists sid = true) :
    ListedIn sid pending (some r) := by
  obtain ⟨d, hfind⟩ := Option.isSome_iff_exists.1 hsid
  exact .inr ⟨r, d, rfl, hfind, hr.settled hfind⟩

/-- Beside a completed record that agrees with it, the pending record lists every identity
that is kept. -/
theorem CancelJobAgrees.lists_pending (h : CancelJobAgrees (some r) completed)
    (hsid : ListedIn sid (some r) completed) : r.lists sid = true := by
  rcases hsid with ⟨r₀, hr₀, hlists⟩ | ⟨r₀, d, rfl, hfind, _⟩
  · injection hr₀ with hr₀
    exact hr₀ ▸ hlists
  · rw [← h.same r r₀ rfl rfl sid]
    exact Option.isSome_iff_exists.2 ⟨d, hfind⟩

/-- **The records of a job agree after a step**, when no identity is registered beside a
completed record. -/
theorem CancelJobAgrees.step (h : CancelJobAgrees pending completed)
    (hstep : CancelJobStep A cluster jobId pending completed pending' completed')
    (htimely : ∀ r sid, r.cluster = cluster → r.jobId = jobId → pending = some r →
      A (.registered ⟨r.cluster, r.jobId, sid⟩) → completed.isSome → r.lists sid = true) :
    CancelJobAgrees pending' completed' := by
  cases hstep with
  | stays => exact h
  | drops => exact ⟨fun _ hr => (by cases hr), h.done, fun _ _ hr => (by cases hr)⟩
  | creates record hcl hj hval hempty hpend hnone hnone' =>
    subst hnone'
    refine ⟨fun r hr => ?_, h.done, fun _ _ _ hr' => (by cases hr')⟩
    injection hr with hr
    subst hr
    refine ⟨?_, fun hres => ?_⟩
    · simp [SchedulerCancelPending.complete, hpend]
    · rw [hpend] at hres
      cases hres
  | changes hallow r r' hcl hj hread hval hchg hcomp =>
    subst hread
    refine ⟨fun r₁ hr₁ => ?_, h.done, fun r₁ r₂ hr₁ hr₂ sid => ?_⟩
    · injection hr₁ with hr₁
      exact hr₁ ▸ hchg.unfinished (h.work r rfl) hcomp
    · injection hr₁ with hr₁
      subst hr₁
      have hsame : r'.lists sid = r.lists sid := by
        refine hchg.lists_same (fun sid' hlab => ?_) sid
        exact htimely r sid' hcl hj rfl (hlab ▸ hallow) (by rw [hr₂]; rfl)
      rw [hsame]
      exact h.same r r₂ rfl hr₂ sid
  | finishes hallow r r' hcl hj hread hval hchg hcomp =>
    subst hread
    refine ⟨fun _ hr => (by cases hr), fun r₁ hr₁ => ?_, fun _ _ hr => (by cases hr)⟩
    injection hr₁ with hr₁
    exact hr₁ ▸ hchg.finished (h.work r rfl) hcomp
  | tears hallow r r' hcl hj hread hval hchg hcomp =>
    subst hread
    refine ⟨h.work, fun r₁ hr₁ => ?_, fun r₁ r₂ hr₁ hr₂ sid => ?_⟩
    · injection hr₁ with hr₁
      exact hr₁ ▸ hchg.finished (h.work r rfl) hcomp
    · injection hr₁ with hr₁
      injection hr₂ with hr₂
      subst hr₁ hr₂
      exact hchg.lists_same (fun sid' => hchg.registered_incomplete (h.work r rfl) hcomp sid') sid

/-- **A kept identity stays kept.** -/
theorem ListedIn.step (h : CancelJobAgrees pending completed)
    (hsid : ListedIn sid pending completed)
    (hstep : CancelJobStep A cluster jobId pending completed pending' completed') :
    ListedIn sid pending' completed' := by
  cases hstep with
  | stays => exact hsid
  | drops hdone =>
    rcases hsid with ⟨r, rfl, hlists⟩ | hdone'
    · obtain ⟨r', rfl⟩ := Option.isSome_iff_exists.1 hdone
      refine listedIn_finished (h.done r' rfl) ?_
      rw [h.same r r' rfl rfl]
      exact hlists
    · exact .inr hdone'
  | creates record hcl hj hval hempty hpend hnone hnone' =>
    subst hnone hnone'
    rcases hsid with ⟨r, hr, _⟩ | ⟨r, d, hr, _⟩ <;> cases hr
  | changes hallow r r' hcl hj hread hval hchg =>
    subst hread
    exact .inl ⟨r', rfl, hchg.lists_of (h.lists_pending hsid)⟩
  | finishes hallow r r' hcl hj hread hval hchg hcomp =>
    subst hread
    exact listedIn_finished (hchg.finished (h.work r rfl) hcomp)
      (hchg.lists_of (h.lists_pending hsid))
  | tears hallow r r' hcl hj hread =>
    subst hread
    exact .inl ⟨r, rfl, h.lists_pending hsid⟩

end

/-- A new identity is registered only while its job has no completed record. -/
def CancelCall.Timely (s : Store) : CancelCall → Prop
  | .registerIdentityOnce jobId cluster schedulerJobId _ _ =>
    ∀ r, s.read (cancelPendingFile cluster jobId) = some r → r.find schedulerJobId = none →
      s.read (cancelDispositionFile cluster jobId) = none
  | _ => True

/-- A timely call registers a new identity only where there is no completed record. -/
theorem CancelCall.Timely.registered {s : Store} {call : CancelCall} (h : call.Timely s)
    {r : SchedulerCancelPending} {sid : String}
    (hread : s.read (cancelPendingFile r.cluster r.jobId) = some r)
    (hlab : call.Permits (.registered ⟨r.cluster, r.jobId, sid⟩))
    (hdone : (s.read (cancelDispositionFile r.cluster r.jobId)).isSome) : r.lists sid = true := by
  obtain ⟨_, _, rfl⟩ := hlab.registration
  rcases hfind : r.find sid with _ | d
  · rw [h r hread hfind] at hdone
    cases hdone
  · rw [SchedulerCancelPending.lists, hfind]; rfl

/-! ### Runs -/

section

variable [Platform] {s s₀ t : Store}

/-- A timely call, stopped after one of its durable writes or run to its end. -/
def CancelCall.TimelyStep (s t : Store) : Prop :=
  ∃ (_ : Entropy) (call : CancelCall) (v : Supply), call.Timely s ∧ t ∈ call.prog.halts s v

omit [Platform] in
theorem NoCancellation.handover (h : NoCancellation s) : CancelHandover s := by
  intro cluster jobId
  rw [(h cluster jobId).1, (h cluster jobId).2]
  exact ⟨fun _ hr => (by cases hr), fun _ hr => (by cases hr), fun _ _ hr => (by cases hr)⟩

theorem CancelHandover.step (h : CancelHandover s) (hstep : CancelCall.TimelyStep s t) :
    CancelHandover t := by
  obtain ⟨_, call, v, htimely, ht⟩ := hstep
  intro cluster jobId
  refine (h cluster jobId).step ((call.left_of_halts ht).job cluster jobId) ?_
  rintro r _ rfl rfl hread hlab hdone
  exact htimely.registered hread hlab hdone

theorem CancelHandover.steps (h : CancelHandover s)
    (hrun : Relation.ReflTransGen CancelCall.TimelyStep s t) : CancelHandover t := by
  induction hrun with
  | refl => exact h
  | tail _ hstep ih => exact ih.step hstep

theorem IdentityKept.steps {key : CancelKey} (h : CancelHandover s) (hkey : IdentityKept s key)
    (hrun : Relation.ReflTransGen CancelCall.TimelyStep s t) : IdentityKept t key := by
  induction hrun with
  | refl => exact hkey
  | tail hrun hstep ih =>
    obtain ⟨_, call, v, _, ht⟩ := hstep
    exact ListedIn.step (h.steps hrun _ _) ih ((call.left_of_halts ht).job _ _)

omit [Platform] in
/-- A registration that returns keeps its identity. -/
theorem CancelWrite.registered_kept {key : CancelKey} (h : CancelHandover s)
    (hwrite : CancelWrite s (.registered key) t) : IdentityKept t key := by
  cases hwrite with
  | known r sid hread hfound =>
    exact .inl ⟨r, hread, Option.isSome_iff_ne_none.2 hfound⟩
  | persisted r r' hread hval hchg =>
    obtain ⟨cluster, jobId, sid⟩ := key
    obtain ⟨rfl, rfl⟩ : cluster = r.cluster ∧ jobId = r.jobId := by
      cases hchg <;> exact ⟨rfl, rfl⟩
    have hlists : r'.lists sid = true := by
      rw [hchg.lists_eq, decide_eq_true rfl, Bool.or_true]
    obtain ⟨hcl, hj⟩ := hchg.same_job
    have hself := @read_cancelPersisted_self s r'
    rw [hcl, hj] at hself
    show ListedIn sid _ _
    rw [hself.1, hself.2]
    rcases hcomp : r'.complete with _ | _
    · exact .inl ⟨r', rfl, hlists⟩
    · exact listedIn_finished (hchg.finished ((h r.cluster r.jobId).work r hread) hcomp) hlists

/-- **No scheduler identity is lost**, wherever the calls stop, while no new identity is
registered beside a completed record. -/
theorem identity_kept_of_run [Entropy] {v : Supply} {jobId : DurableRecordId}
    {cluster schedulerJobId : String} {provider : Option String} {ownershipVerified : Bool}
    {registration : SchedulerCancelIdentityRegistration} (hs₀ : NoCancellation s₀)
    (hrun : Relation.ReflTransGen CancelCall.TimelyStep s₀ s)
    (htimely : (CancelCall.registerIdentityOnce jobId cluster schedulerJobId provider
      ownershipVerified).Timely s)
    (hreturns : ((registerSchedulerCancelIdentityOnce jobId cluster schedulerJobId provider
      ownershipVerified).run s v).result = .ok registration)
    (hlater : Relation.ReflTransGen CancelCall.TimelyStep
      ((registerSchedulerCancelIdentityOnce jobId cluster schedulerJobId provider
        ownershipVerified).run s v).store t) :
    IdentityKept t ⟨cluster, jobId, schedulerJobId⟩ := by
  have hhandover := hs₀.handover.steps hrun
  have hends := registerSchedulerCancelIdentityOnce_ends
    (A := (CancelCall.registerIdentityOnce jobId cluster schedulerJobId provider
      ownershipVerified).Permits) jobId cluster schedulerJobId provider ownershipVerified
    (.inr rfl) s v
  have hwrite := hends.2
  rw [hreturns] at hwrite
  have hleft : CancelLeft (CancelCall.registerIdentityOnce jobId cluster schedulerJobId provider
      ownershipVerified).Permits s ((registerSchedulerCancelIdentityOnce jobId cluster
        schedulerJobId provider ownershipVerified).run s v).store := .ended hwrite.1 hwrite.2
  have hafter : CancelHandover ((registerSchedulerCancelIdentityOnce jobId cluster schedulerJobId
      provider ownershipVerified).run s v).store := by
    intro cluster' jobId'
    refine (hhandover cluster' jobId').step (hleft.job cluster' jobId') ?_
    rintro r _ rfl rfl hread hlab hdone
    exact htimely.registered hread hlab hdone
  exact (hwrite.2.registered_kept hhandover).steps hafter hlater

end

/-- The registration of an identity of the sample job. -/
def sampleRegistration : CancelCall :=
  .registerIdentityOnce sampleJob.jobId "ares" "77" (some "slurm") true

/-- The sample job has a pending cancellation. -/
def sampleCancelPending : Store :=
  (CancelCall.ensurePending sampleJob.jobId "operator_request").stopped 100 sampleCancelQueue

/-- The sample registration, run to its end. -/
def sampleRegistered (s : Store) :
    Outcome Store Supply RelayError SchedulerCancelIdentityRegistration :=
  letI := samplePlatform
  letI := sampleEntropy
  (registerSchedulerCancelIdentityOnce sampleJob.jobId "ares" "77" (some "slurm") true).run s
    sampleSupply

/-- A registered identity is still there after a superseded scan that was stopped between
its two writes. -/
theorem identity_kept_of_run_sample :
    IdentityKept ((CancelCall.completeIdentityScan sampleJob.jobId "ares" true).stopped 1
      (sampleRegistered sampleCancelPending).store) sampleCancelKey := by
  let := samplePlatform
  let := sampleEntropy
  have hrun : Relation.ReflTransGen CancelCall.TimelyStep sampleCancelQueue sampleCancelPending :=
    .single ⟨sampleEntropy, .ensurePending sampleJob.jobId "operator_request", sampleSupply,
      trivial, CancelCall.stopped_mem_halts ..⟩
  have hlater : Relation.ReflTransGen CancelCall.TimelyStep
      (sampleRegistered sampleCancelPending).store
      ((CancelCall.completeIdentityScan sampleJob.jobId "ares" true).stopped 1
        (sampleRegistered sampleCancelPending).store) :=
    .single ⟨sampleEntropy, .completeIdentityScan sampleJob.jobId "ares" true, sampleSupply,
      trivial, CancelCall.stopped_mem_halts ..⟩
  have htimely : sampleRegistration.Timely sampleCancelPending := fun _ _ _ => by decide +kernel
  have hok : ∃ registration, (sampleRegistered sampleCancelPending).result = .ok registration := by
    rcases hresult : (sampleRegistered sampleCancelPending).result with e | registration
    · have hfine : (sampleRegistered sampleCancelPending).result.toOption.isSome = true := by
        decide +kernel
      rw [hresult] at hfine
      cases hfine
    · exact ⟨registration, rfl⟩
  obtain ⟨registration, hreturns⟩ := hok
  exact identity_kept_of_run noCancellation_sampleCancelQueue hrun htimely hreturns hlater

/-- The closing of an empty scan has stopped between its two writes. -/
def sampleClosedTorn : Store :=
  (CancelCall.completeIdentityScan sampleJob.jobId "ares" false).stopped 1 sampleCancelPending

/-- The next scan of the cluster, after a registration. -/
def sampleScanned : Store :=
  (CancelCall.scanDue "ares" 10 none).stopped 100 (sampleRegistered sampleClosedTorn).store

/-- **An identity is lost**: it is registered beside the completed record of a closing that
was stopped, and the next scan drops the pending record. -/
theorem identity_lost_beside_completed :
    NoCancellation sampleCancelQueue ∧
      Relation.ReflTransGen (@CancelCall.Step samplePlatform) sampleCancelQueue sampleClosedTorn ∧
      (sampleRegistered sampleClosedTorn).result.toOption.isSome = true ∧
      Relation.ReflTransGen (@CancelCall.Step samplePlatform)
        (sampleRegistered sampleClosedTorn).store sampleScanned ∧
      ¬ IdentityKept sampleScanned sampleCancelKey := by
  have hpend : sampleScanned.read (cancelPendingFile "ares" sampleJob.jobId) = none := by
    decide +kernel
  have hdone : (sampleScanned.read (cancelDispositionFile "ares" sampleJob.jobId)).all
      (fun r => !r.lists "77") = true := by decide +kernel
  refine ⟨noCancellation_sampleCancelQueue,
    .tail (.single (CancelCall.step_stopped ..)) (CancelCall.step_stopped ..), by decide +kernel,
    .single (CancelCall.step_stopped ..), ?_⟩
  rintro (⟨r, hr, _⟩ | ⟨r, d, hr, hfind, _⟩)
  · have hr' : sampleScanned.read (cancelPendingFile "ares" sampleJob.jobId) = some r := hr
    rw [hpend] at hr'
    cases hr'
  · have hr' : sampleScanned.read (cancelDispositionFile "ares" sampleJob.jobId) = some r := hr
    have hlists : r.lists "77" = true := Option.isSome_iff_exists.2 ⟨d, hfind⟩
    rw [hr'] at hdone
    simp [hlists] at hdone

/-! ### One request -/

/-- The pending and the completed record of a job whose cancellation was requested. -/
structure CancelRequested (requestedAt : Time) (reason : String)
    (pending completed : Option SchedulerCancelPending) : Prop where
  kept : pending.isSome ∨ completed.isSome
  work : ∀ r, pending = some r → r.Unfinished ∧ r.requestedAt = requestedAt ∧ r.reason = reason
  done : ∀ r, completed = some r → r.Finished ∧ r.requestedAt = requestedAt ∧ r.reason = reason

section

variable {A : CancelLabel → Prop} {label : CancelLabel} {cluster reason : String}
  {jobId : DurableRecordId} {requestedAt : Time} {r r' : SchedulerCancelPending}
  {pending completed pending' completed' : Option SchedulerCancelPending}

theorem CancelChange.same_request (h : CancelChange r label r') :
    r'.requestedAt = r.requestedAt ∧ r'.reason = r.reason := by
  cases h <;> exact ⟨rfl, rfl⟩

/-- **A step keeps the request.** -/
theorem CancelRequested.step (h : CancelRequested requestedAt reason pending completed)
    (hstep : CancelJobStep A cluster jobId pending completed pending' completed') :
    CancelRequested requestedAt reason pending' completed' := by
  cases hstep with
  | stays => exact h
  | drops hdone => exact ⟨.inr hdone, fun _ hr => (by cases hr), h.done⟩
  | creates record _ _ _ _ _ hnone hnone' =>
    rw [hnone, hnone'] at h
    rcases h.kept with hkept | hkept <;> cases hkept
  | changes _ r r' _ _ hread _ hchg hcomp =>
    refine ⟨.inl rfl, fun r₁ hr₁ => ?_, h.done⟩
    cases hr₁
    obtain ⟨hwork, hreq, hreason⟩ := h.work r hread
    exact ⟨hchg.unfinished hwork hcomp, hchg.same_request.1.trans hreq,
      hchg.same_request.2.trans hreason⟩
  | finishes _ r r' _ _ hread _ hchg hcomp | tears _ r r' _ _ hread _ hchg hcomp =>
    -- a torn hand-over still has the pending record that was read
    refine ⟨.inr rfl, fun r₁ hr₁ => ?_, fun r₁ hr₁ => ?_⟩
    · first | exact h.work r₁ hr₁ | cases hr₁
    · cases hr₁
      obtain ⟨hwork, hreq, hreason⟩ := h.work r hread
      exact ⟨hchg.finished hwork hcomp, hchg.same_request.1.trans hreq,
        hchg.same_request.2.trans hreason⟩

/-- The first step that leaves a record requests the cancellation. -/
theorem CancelJobStep.requests (hstep : CancelJobStep A cluster jobId none none pending' completed') :
    pending' = none ∧ completed' = none ∨
      ∃ requestedAt reason, CancelRequested requestedAt reason pending' completed' := by
  cases hstep with
  | stays => exact .inl ⟨rfl, rfl⟩
  | drops hdone => cases hdone
  | creates record _ _ _ _ hpend =>
    refine .inr ⟨record.requestedAt, record.reason, .inl rfl, fun r hr => ?_, nofun⟩
    cases hr
    refine ⟨⟨?_, fun hres => ?_⟩, rfl, rfl⟩
    · simp [SchedulerCancelPending.complete, hpend]
    · rw [hpend] at hres
      cases hres
  | changes _ _ _ _ _ hread | finishes _ _ _ _ _ hread | tears _ _ _ _ _ hread => cases hread

end

section

variable [Platform] {s₀ s t : Store}

/-- **A requested cancellation stays requested.**  In every state of a run the cancellation of a
job was either never requested, or there are a time and a reason that each of its records carries
in every later state, in which it has one. -/
theorem cancel_request_kept_of_run (hs₀ : NoCancellation s₀)
    (hrun : Relation.ReflTransGen CancelCall.Step s₀ s) (cluster : String)
    (jobId : DurableRecordId) :
    s.read (cancelPendingFile cluster jobId) = none ∧
        s.read (cancelDispositionFile cluster jobId) = none ∨
      ∃ requestedAt reason, ∀ t, Relation.ReflTransGen CancelCall.Step s t →
        CancelRequested requestedAt reason (t.read (cancelPendingFile cluster jobId))
          (t.read (cancelDispositionFile cluster jobId)) := by
  have hlater : ∀ {requestedAt reason u}, CancelRequested requestedAt reason
      (u.read (cancelPendingFile cluster jobId)) (u.read (cancelDispositionFile cluster jobId)) →
      ∀ t, Relation.ReflTransGen CancelCall.Step u t → CancelRequested requestedAt reason
        (t.read (cancelPendingFile cluster jobId)) (t.read (cancelDispositionFile cluster jobId)) := by
    intro requestedAt reason u h t hsteps
    induction hsteps with
    | refl => exact h
    | tail _ hstep ih =>
      obtain ⟨_, call, v, ht⟩ := hstep
      exact ih.step ((call.left_of_halts ht).job cluster jobId)
  induction hrun with
  | refl => exact .inl (hs₀ cluster jobId)
  | @tail u s _ hstep ih =>
    obtain ⟨_, call, v, ht⟩ := hstep
    have hjob := (call.left_of_halts ht).job cluster jobId
    rcases ih with ⟨hnone, hnone'⟩ | ⟨requestedAt, reason, hreq⟩
    · rw [hnone, hnone'] at hjob
      exact hjob.requests.imp_right fun ⟨requestedAt, reason, h⟩ => ⟨requestedAt, reason, hlater h⟩
    · exact .inr ⟨requestedAt, reason, hlater ((hreq u .refl).step hjob)⟩

end

/-- The request stays while a closing hands it over. -/
theorem cancel_request_kept_of_run_sample : ∃ requestedAt reason,
    CancelRequested requestedAt reason
      (sampleClosedTorn.read (cancelPendingFile "ares" sampleJob.jobId))
      (sampleClosedTorn.read (cancelDispositionFile "ares" sampleJob.jobId)) := by
  let := samplePlatform
  have hpend : (sampleCancelPending.read (cancelPendingFile "ares" sampleJob.jobId)).isSome := by
    decide +kernel
  rcases cancel_request_kept_of_run noCancellation_sampleCancelQueue
    (.single (CancelCall.step_stopped ..)) "ares" sampleJob.jobId with ⟨hnone, _⟩ | ⟨_, _, h⟩
  · have hread : sampleCancelPending.read (cancelPendingFile "ares" sampleJob.jobId) = none := hnone
    rw [hread] at hpend
    cases hpend
  · exact ⟨_, _, h _ (.single (CancelCall.step_stopped ..))⟩

end ClioQueue
