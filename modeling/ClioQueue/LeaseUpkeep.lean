/-
# The lease operations, whatever they keep

The control flow of the lease operations, proved once for every invariant.
`Upkeep R C F` lists what an invariant has to offer: `R T` holds of a queue at
rest with the lease table `T`, `C` wherever a process may stop and `F` where a
call may end, and the building blocks (the journal replay, the deletion of a
lease, the recovery of a job, the acquisition of a job) keep it.  The sweeps and
the admission loops then keep it too.

What a block may rely on when the control flow reaches it is stated with it:
`RecoveryDue` for a recovery and `Admissible` for an acquisition.
-/

import ClioQueue.LeaseJournal
import ClioQueue.LeaseReads

namespace ClioQueue

variable {group : DurableRecordId × List Lease} {T T' : LeaseTable}
  {groups : List (DurableRecordId × List Lease)} {ids : List DurableRecordId} {cluster : String}
  {now : Time}

open Durable Durable.Prog

/-! ### Due leases by job -/

theorem addToJob_perm (lease : Lease) (groups : List (DurableRecordId × List Lease)) :
    ((addToJob lease groups).flatMap Prod.snd).Perm (lease :: groups.flatMap Prod.snd) := by
  induction groups with
  | nil => simp [addToJob]
  | cons group groups ih =>
    obtain ⟨_, leases⟩ := group
    unfold addToJob
    split
    · simp only [List.flatMap_cons, List.append_assoc, List.singleton_append]
      exact List.perm_middle
    · simp only [List.flatMap_cons]
      exact (ih.append_left leases).trans List.perm_middle

/-- Grouping by job loses no lease and repeats none. -/
theorem leasesByJob_perm (leases : List Lease) :
    ((leasesByJob leases).flatMap Prod.snd).Perm leases := by
  have hfold : ∀ (leases : List Lease) (groups : List (DurableRecordId × List Lease)),
      ((leases.foldl (fun groups lease => addToJob lease groups) groups).flatMap Prod.snd).Perm
        (leases ++ groups.flatMap Prod.snd) := by
    intro leases
    induction leases with
    | nil => exact fun groups => List.Perm.refl _
    | cons lease leases ih =>
      intro groups
      refine (ih _).trans ?_
      refine ((addToJob_perm lease groups).append_left leases).trans ?_
      exact List.perm_middle
  simpa [leasesByJob] using hfold leases []

/-- Every group holds leases of its job, and at least one. -/
def GroupsOk (groups : List (DurableRecordId × List Lease)) : Prop :=
  ∀ group ∈ groups, group.2 ≠ [] ∧ ∀ lease ∈ group.2, lease.jobId = group.1

/-- Adding a lease to the group of its job keeps every group of one job and not empty. -/
theorem GroupsOk.addToJob (h : GroupsOk groups) (lease : Lease) :
    GroupsOk (addToJob lease groups) := by
  induction groups with
  | nil =>
    intro group hgroup
    rw [List.mem_singleton.1 hgroup]
    exact ⟨by simp, fun l hl => by rw [List.mem_singleton.1 hl]⟩
  | cons group groups ih =>
    obtain ⟨jobId, leases⟩ := group
    have hhead := h (jobId, leases) (.head _)
    have htail : GroupsOk groups := fun g hg => h g (.tail _ hg)
    unfold ClioQueue.addToJob
    split
    · next heq =>
        intro group hgroup
        rcases List.mem_cons.1 hgroup with rfl | hgroup
        · refine ⟨by simp, fun l hl => ?_⟩
          rcases List.mem_append.1 hl with hl | hl
          · exact hhead.2 l hl
          · rw [List.mem_singleton.1 hl]
            exact heq.symm
        · exact htail group hgroup
    · intro group hgroup
      rcases List.mem_cons.1 hgroup with rfl | hgroup
      · exact hhead
      · exact ih htail group hgroup

theorem groupsOk_leasesByJob (leases : List Lease) : GroupsOk (leasesByJob leases) := by
  have hfold : ∀ (leases : List Lease) (groups : List (DurableRecordId × List Lease)),
      GroupsOk groups →
        GroupsOk (leases.foldl (fun groups lease => addToJob lease groups) groups) := by
    intro leases
    induction leases with
    | nil => exact fun groups h => h
    | cons lease leases ih => exact fun groups h => ih _ (h.addToJob lease)
  exact hfold leases [] nofun

/-! ### What a block may rely on -/

/-- A smaller table: some leases are gone, and only leases of `ids`. -/
structure Shrunk (ids : List DurableRecordId) (T T' : LeaseTable) : Prop where
  others : ∀ id, id ∉ ids → T'.read id = T.read id
  sub : ∀ id e, T'.read id = some e → T.read id = some e

theorem Shrunk.refl (ids : List DurableRecordId) (T : LeaseTable) : Shrunk ids T T :=
  ⟨fun _ _ => rfl, fun _ _ h => h⟩

theorem Shrunk.trans {T'' : LeaseTable} (h : Shrunk ids T T') (h' : Shrunk ids T' T'') :
    Shrunk ids T T'' :=
  ⟨fun id hid => (h'.others id hid).trans (h.others id hid),
    fun id e he => h.sub id e (h'.sub id e he)⟩

theorem Shrunk.mono {ids' : List DurableRecordId} (h : Shrunk ids T T') (hsub : ids ⊆ ids') :
    Shrunk ids' T T' :=
  ⟨fun id hid => h.others id fun hid' => hid (hsub hid'), h.sub⟩

theorem shrunk_remove (ids : List DurableRecordId) (T : LeaseTable) : Shrunk ids T (T.remove ids) :=
  ⟨fun id hid => by rw [LeaseTable.read_remove, if_neg hid],
    fun _ _ he => (LeaseTable.read_remove_some he).2⟩

/-- The due leases of a job. -/
structure GroupDue (T : LeaseTable) (cluster : String) (now : Time)
    (group : DurableRecordId × List Lease) : Prop where
  nonempty : group.2 ≠ []
  jobId : ∀ lease ∈ group.2, lease.jobId = group.1
  due : ∀ lease ∈ group.2, DueLease T cluster now lease
  nodup : (group.2.map Lease.leaseId).Nodup

/-- The due leases of several jobs, no two of them the same lease. -/
structure GroupsDue (T : LeaseTable) (cluster : String) (now : Time)
    (groups : List (DurableRecordId × List Lease)) : Prop where
  ok : GroupsOk groups
  due : ∀ lease ∈ groups.flatMap Prod.snd, DueLease T cluster now lease
  nodup : ((groups.flatMap Prod.snd).map Lease.leaseId).Nodup

theorem GroupsDue.head (h : GroupsDue T cluster now (group :: groups)) :
    GroupDue T cluster now group := by
  have hnd := h.nodup
  rw [List.flatMap_cons, List.map_append, List.nodup_append] at hnd
  exact
    { nonempty := (h.ok group (.head _)).1
      jobId := (h.ok group (.head _)).2
      due := fun lease hlease => h.due lease (List.mem_append_left _ hlease)
      nodup := hnd.1 }

/-- The leases of the other groups outlive those of the first. -/
theorem GroupsDue.tail (h : GroupsDue T cluster now (group :: groups))
    (hT' : Shrunk (group.2.map Lease.leaseId) T T') : GroupsDue T' cluster now groups := by
  have hnd := h.nodup
  rw [List.flatMap_cons, List.map_append, List.nodup_append] at hnd
  refine ⟨fun g hg => h.ok g (.tail _ hg), fun lease hlease => ?_, hnd.2.1⟩
  obtain ⟨⟨e, he, heq, hcl⟩, hexp⟩ := h.due lease (List.mem_append_right _ hlease)
  refine ⟨⟨e, ?_, heq, hcl⟩, hexp⟩
  rw [hT'.others, he]
  exact fun hid => hnd.2.2 _ hid _ (List.mem_map_of_mem hlease) rfl

section

variable [Entropy]

/-- The expired leases of a held job, all live. -/
structure RecoveryDue (T : LeaseTable) (s : Store) (job : RelayJob) (leases : List Lease) :
    Prop where
  canonical : s.read (.job job.jobId) = some job
  held : job.state.held = true
  nonempty : leases ≠ []
  live : ∀ lease ∈ leases, T.read lease.leaseId = some (.of lease job)
  jobId : ∀ lease ∈ leases, lease.jobId = job.jobId
  nodup : (leases.map Lease.leaseId).Nodup
  expired : ∀ lease ∈ leases, ∃ n, lease.isExpired (Entropy.clock n) = true

/-- The occupancy leaves room for a lease on the job: without a lane its kind is below its limit;
in a lane the MCP calls of the class are below the limit of the lane, and workload calls below
the limit of their kind. -/
def WithinLimits (T : LeaseTable) (limits : List (JobKind × Int)) (lane : Option McpLane)
    (job : RelayJob) : Prop :=
  match lane, job.kind with
  | some lane, .mcpCall =>
    jobMatchesMcpAdmissionClass job lane.admissionClass = true ∧
      (∀ limit, lane.limit = some limit →
        (T.mcpCount job.cluster lane.admissionClass : Int) < limit) ∧
      (lane.admissionClass = .workload → ∀ limit, limits.lookup .mcpCall = some limit →
        (T.mcpCount job.cluster .workload : Int) < limit)
  | some lane, kind =>
    lane.admissionClass = .workload ∧ ∀ limit, limits.lookup kind = some limit →
      (T.scopes.count (leaseClusterDigest job.cluster, kind) : Int) < limit
  | none, kind => ∀ limit, limits.lookup kind = some limit →
      (T.scopes.count (leaseClusterDigest job.cluster, kind) : Int) < limit

/-- A queued job that an endpoint without a live lease may acquire. -/
structure Admissible (T : LeaseTable) (s : Store) (endpointId : DurableRecordId)
    (limits : List (JobKind × Int)) (lane : Option McpLane) (job : RelayJob) : Prop where
  queued : QueuedJob s job
  idle : T.Idle endpointId
  within : WithinLimits T limits lane job

/-- What the loop of `acquire_next_job` knows is true of the table. -/
structure Admission.Of (admission : Admission) (T : LeaseTable) : Prop where
  idle : T.Idle admission.endpointId
  reusable : ∀ refs, admission.reusable = some refs → Snapshot T refs
  counts : ∀ kind, admission.counts kind = T.scopes.count (leaseClusterDigest admission.cluster, kind)
  total : admission.globalTotal = Multiset.card T.scopes
  atLimit : ∀ lane limit, admission.lane = some lane → lane.limit = some limit →
    admission.mcpAtLimit = false → (T.mcpCount admission.cluster lane.admissionClass : Int) < limit

/-- The workload count is computed once. -/
def Admission.KnowsWorkload (admission : Admission) (T : LeaseTable) (workload : Option Nat) :
    Prop :=
  ∀ count, workload = some count → count = T.mcpCount admission.cluster .workload

/-- No random identifier of the call names a lease. -/
def FreshLeaseIds (s : Store) : Prop :=
  ∀ n id, idOf "lease" (Entropy.uuids n) = .ok id → s.read (.lease id) = none

/-- **What an invariant offers the lease operations.** -/
structure Upkeep [Platform] (R : LeaseTable → Store → Prop) (C F : Store → Prop)
    (limits : List (JobKind × Int)) (lane : Option McpLane) : Prop where
  settled : ∀ {T s}, R T s → Settled T s
  trail : ∀ {T s}, R T s → C s
  ends : ∀ {T s}, R T s → F s
  quiet : ∀ {T s t}, R T s → Quiet s t → R T t
  replay : ∀ {s v}, F s → FreshLeaseIds s → Prog.wp reconcileTransitionIntents C
    (fun _ t _ => (∃ T, R T t) ∧ NoNew s t) (fun _ t _ => F t) s v
  delete : ∀ {T s v e} (job : Option RelayJob), R T s → T.read e.lease.leaseId = some e →
    (∀ found ∈ job, s.read (.job e.lease.jobId) = some found) →
      Prog.wp (deleteLease e.lease job) C (fun _ t _ => R (T.remove [e.lease.leaseId]) t ∧
        ∀ id, t.read (.job id) = s.read (.job id)) (fun _ t _ => F t) s v
  recover : ∀ {T s v job leases maxAttempts}, R T s → RecoveryDue T s job leases →
    Prog.wp (recoverExpiredLeases job leases maxAttempts) C
      (fun _ t _ => R (T.remove (leases.map Lease.leaseId)) t) (fun _ t _ => F t) s v
  lease : ∀ {T s v job endpointId ttlSeconds}, R T s → Admissible T s endpointId limits lane job →
      Prog.wp (leaseJob job endpointId ttlSeconds (Multiset.card T.scopes)) C
        (fun _ t _ => F t) (fun _ t _ => F t) s v

namespace Upkeep

variable [Platform] {R : LeaseTable → Store → Prop} {C F : Store → Prop}
  {limits : List (JobKind × Int)} {lane : Option McpLane} {T : LeaseTable} {s : Store} {v : Supply}
  {args : AcquireArgs} {admission : Admission} {jobId leaseId : DurableRecordId}
  {entry : DurableRecordId × Lease} {group : DurableRecordId × List Lease} {maxAttempts : Int}
  {leases leases' : List Lease} {reusable : Option (List LeaseIdentityToken)}
  {E : Post RelayError} {job : RelayJob} {cluster : String}
  {Q : Post Unit}

section

variable (h : Upkeep R C F limits lane) (hR : R T s)

include h hR

theorem wp_quiet {α : Type} {m : Op α} {Q : Post α} (hm : Quietly m)
    (hQ : ∀ a t w, R T t → Quiet s t → Q a t w) : wp m C Q (fun _ t _ => F t) s v :=
  hm.wp (fun _ ht => h.trail (h.quiet hR ht)) (fun a t w ht => hQ a t w (h.quiet hR ht) ht)
    fun _ _ _ ht => h.ends (h.quiet hR ht)

theorem wp_readOnly {α : Type} {m : Op α} {Q : Post α} (hm : m.ReadOnly) (hQ : ∀ a w, Q a s w) :
    wp m C Q (fun _ t _ => F t) s v :=
  hm.wp hQ fun _ _ => h.ends hR

theorem clusters :
    ∀ id e, T.read id = some e → e.cluster ≠ "" := by
  intro id e he
  have hbooks := (h.settled hR).books
  obtain ⟨job, hjob, -⟩ := hbooks.backed.job id e he
  exact (hbooks.backed.job_of hbooks.jobs he hjob).2.1

end

/-! ### Deleting -/

/-- Deleting several live leases of a job. -/
theorem wp_deleteLeases (h : Upkeep R C F limits lane) (hR : R T s)
    (hjob : s.read (.job job.jobId) = some job)
    (hlive : ∀ lease ∈ leases, T.read lease.leaseId = some (.of lease job))
    (hjobId : ∀ lease ∈ leases, lease.jobId = job.jobId) (hnd : (leases.map Lease.leaseId).Nodup)
    (hQ : ∀ T' t w, R T' t → Shrunk (leases.map Lease.leaseId) T T' → Q () t w) :
    wp (each (fun lease => deleteLease lease (some job)) leases) C Q (fun _ t _ => F t) s v := by
  refine wp_each (fun rest t _ => ∃ T', R T' t ∧ Shrunk (leases.map Lease.leaseId) T T' ∧
    t.read (.job job.jobId) = some job ∧ (∀ lease ∈ rest, lease ∈ leases) ∧
    (rest.map Lease.leaseId).Nodup ∧
    ∀ lease ∈ rest, T'.read lease.leaseId = some (.of lease job)) _
    (fun lease rest t w hJ => ?_) (fun t w hJ => ?_) leases s v
    ⟨T, hR, .refl _ T, hjob, fun _ h => h, hnd, hlive⟩
  · obtain ⟨T', hR', hshrunk, hjob', hsub, hnd', hlive'⟩ := hJ
    have hlease := hlive' lease (.head _)
    refine wp_imp (h.delete (e := .of lease job) (some job) hR' hlease ?_) fun _ u w hu => ?_
    · intro _ hfound
      cases hfound
      have hid : (LiveLease.of lease job).lease.jobId = job.jobId := hjobId lease (hsub lease (.head _))
      rw [hid]
      exact hjob'
    · have hids : [lease.leaseId] ⊆ leases.map Lease.leaseId := by
        intro _ hid
        rw [List.mem_singleton.1 hid]
        exact List.mem_map_of_mem (hsub lease (.head _))
      refine ⟨_, hu.1, hshrunk.trans ((shrunk_remove _ T').mono hids), ?_, fun l hl =>
        hsub l (.tail _ hl), (List.nodup_cons.1 hnd').2, fun l hl => ?_⟩
      · rw [hu.2, hjob']
      · rw [LeaseTable.read_remove, if_neg, hlive' l (.tail _ hl)]
        intro hid
        have heq : l.leaseId = lease.leaseId := List.mem_singleton.1 hid
        exact (List.nodup_cons.1 hnd').1 (heq ▸ List.mem_map_of_mem hl)
  · obtain ⟨T', hR', hshrunk, -⟩ := hJ
    exact hQ T' t w hR' hshrunk

/-! ### The sweep -/

section

variable (h : Upkeep R C F limits lane) (hR : R T s)

include h hR

theorem live_of_due {now : Time}
    (hgroup : GroupDue T cluster now group) (hjob : s.read (.job group.1) = some job) :
    ∀ lease ∈ group.2, T.read lease.leaseId = some (.of lease job) := by
  intro lease hlease
  obtain ⟨e, he, rfl, -⟩ := (hgroup.due lease hlease).live
  have hbooks := (h.settled hR).books
  have hjob' : s.read (.job e.lease.jobId) = some job := by
    rw [hgroup.jobId e.lease hlease]
    exact hjob
  rw [he, ← (hbooks.backed.job_of hbooks.jobs he hjob').1.eq_of]

/-- **One job of the sweep**: its due leases are deleted, recovered with the job, or left. -/
theorem wp_recoverJobLeases {n : Nat} {Q : Post JobRecovery}
    (hgroup : GroupDue T cluster (Entropy.clock n) group)
    (hQ : ∀ result T' t w, R T' t → Shrunk (group.2.map Lease.leaseId) T T' → (result.changed = false → T' = T) → Q result t w) :
    wp (recoverJobLeases cluster maxAttempts group) C Q (fun _ t _ => F t) s v := by
  have hbooks := (h.settled hR).books
  unfold recoverJobLeases
  rw [wp_bind]
  refine wp_readJob hbooks.jobs ?_
  rcases hjob : s.read (.job group.1) with _ | job
  · -- A live lease has a job.
    exfalso
    obtain ⟨lease, hlease⟩ := List.exists_mem_of_ne_nil _ hgroup.nonempty
    obtain ⟨e, he, rfl, -⟩ := (hgroup.due lease hlease).live
    obtain ⟨job, hjob', -⟩ := hbooks.backed.job _ e he
    rw [hgroup.jobId e.lease hlease, hjob] at hjob'
    cases hjob'
  · have hname := hbooks.jobs.named _ _ hjob
    have hlive := h.live_of_due hR hgroup hjob
    have hjobId : ∀ lease ∈ group.2, lease.jobId = job.jobId := fun lease hlease =>
      (hgroup.jobId lease hlease).trans hname.symm
    have hcanon : s.read (.job job.jobId) = some job := by
      rw [hname]
      exact hjob
    refine wp_require_then (fun _ => ?_) fun _ => h.ends hR
    rw [wp_ite]
    constructor
    · intro _
      rw [wp_bind]
      refine h.wp_deleteLeases hR hcanon hlive hjobId hgroup.nodup fun T' t w hR' hshrunk => ?_
      refine (wp_pure _).2 (hQ _ T' t w hR' hshrunk fun hchg => ?_)
      have hsome : (!group.2.isEmpty) = true := by simpa using hgroup.nonempty
      rw [hsome] at hchg
      cases hchg
    · intro hheld
      have hheld : job.state.held = true := by simpa using hheld
      rw [wp_bind]
      refine h.wp_quiet hR (quiet_jobHasPendingExecutionCleanupAfterMigration cluster job.jobId)
        fun cleanup t w hR' ht => ?_
      have hkept : ∀ a u w, R T u → Q ⟨a, false⟩ u w := fun a u w hu =>
        hQ _ T u w hu (.refl _ T) fun _ => rfl
      refine wp_cases (fun _ => (wp_pure _).2 (hkept _ t w hR')) fun _ => ?_
      rw [wp_bind]
      refine h.wp_readOnly hR' (readOnly_jobHasSchedulerObservation job) fun observed w => ?_
      refine wp_cases (fun _ => (wp_pure _).2 (hkept _ t w hR')) fun _ => ?_
      have hdue : RecoveryDue T t job group.2 :=
        { canonical := by rw [ht.same (.job job.jobId) trivial, hcanon]
          held := hheld
          nonempty := hgroup.nonempty
          live := hlive
          jobId := hjobId
          nodup := hgroup.nodup
          expired := fun lease hlease => ⟨n, (hgroup.due lease hlease).expired⟩ }
      refine wp_then (h.recover hR' hdue) fun _ u w hu => ?_
      exact (wp_pure _).2 (hQ _ _ u w hu (shrunk_remove _ T) nofun)

/-- **The sweep** over a complete snapshot of the expiry references. -/
theorem wp_recoverStaleJobsFromExpiryRefs {refs : List LeaseIdentityToken}
    {Q : Post (List RelayJob × Bool)}
    (hrefs : Snapshot T refs)
    (hQ : ∀ result T' t w, R T' t → (result.2 = false → T' = T) → Q result t w) :
    wp (recoverStaleJobsFromExpiryRefs cluster maxAttempts refs) C Q (fun _ t _ => F t) s v := by
  have hsettled := h.settled hR
  unfold recoverStaleJobsFromExpiryRefs
  rw [wp_bind, wp_utcNow, wp_bind]
  refine hsettled.atRest.wp_dueExpiredLeases hsettled.books.backed.named (h.clusters hR) hrefs
    fun due hdue hnd => ?_
  have hperm := leasesByJob_perm due
  have hgroups : GroupsDue T cluster (Entropy.clock v.ticks) (leasesByJob due) :=
    { ok := groupsOk_leasesByJob due
      due := fun lease hlease => hdue lease (hperm.mem_iff.1 hlease)
      nodup := ((hperm.map Lease.leaseId).nodup_iff).2 hnd }
  rw [wp_bind]
  have hloop := wp_gather (C := C) (E := fun _ t _ => F t)
    (fun rest (results : List JobRecovery) t _ => ∃ T', R T' t ∧
      GroupsDue T' cluster (Entropy.clock v.ticks) rest ∧
        (results.any JobRecovery.changed = false → T' = T))
    (fun group => do
      let result ← recoverJobLeases cluster maxAttempts group
      pure [result])
    (fun group rest results t w hJ => ?_) (leasesByJob due) [] s { v with ticks := v.ticks + 1 }
    ⟨T, hR, hgroups, fun _ => rfl⟩
  · refine wp_imp hloop fun results t w hJ => ?_
    obtain ⟨T', hR', -, hsame⟩ := hJ
    exact (wp_pure _).2 (hQ _ T' t w hR' hsame)
  · obtain ⟨T', hR', hrest, hsame⟩ := hJ
    rw [wp_bind]
    refine h.wp_recoverJobLeases hR' hrest.head fun result T'' u w hR'' hshrunk hkept => ?_
    refine (wp_pure _).2 ⟨T'', hR'', hrest.tail hshrunk, fun hnone => ?_⟩
    rw [List.any_append, Bool.or_eq_false_iff] at hnone
    have hlast : result.changed = false := by simpa using hnone.2
    rw [hkept hlast, hsame hnone.1]

theorem wp_recoverStaleJobsUnlocked {Q : Post (List RelayJob)} (hQ : ∀ jobs T' t w, R T' t → Q jobs t w) :
    wp (recoverStaleJobsUnlocked cluster maxAttempts) C Q (fun _ t _ => F t) s v := by
  have hsettled := h.settled hR
  unfold recoverStaleJobsUnlocked
  rw [wp_bind]
  refine hsettled.atRest.wp_expirySnapshot hsettled.books.backed.named (fun refs hrefs => ?_)
    fun _ _ => h.ends hR
  rw [wp_bind]
  refine h.wp_recoverStaleJobsFromExpiryRefs hR hrefs fun result T' t w hR' _ => ?_
  exact (wp_pure _).2 (hQ _ T' t w hR')

/-- **Recovery before admission**: the references it returns are still those of the table. -/
theorem wp_recoverStaleJobsForAdmission {Q : Post (Option (List LeaseIdentityToken))}
    (hQ : ∀ reusable T' t w, R T' t → (∀ refs, reusable = some refs → Snapshot T' refs) → Q reusable t w) :
    wp (recoverStaleJobsForAdmission cluster maxAttempts) C Q (fun _ t _ => F t) s v := by
  have hsettled := h.settled hR
  unfold recoverStaleJobsForAdmission
  rw [wp_bind]
  refine hsettled.atRest.wp_expirySnapshot hsettled.books.backed.named (fun refs hrefs => ?_)
    fun _ _ => h.ends hR
  rw [wp_bind]
  refine h.wp_recoverStaleJobsFromExpiryRefs hR hrefs fun result T' t w hR' hsame => ?_
  refine (wp_pure _).2 (hQ _ T' t w hR' fun found hfound => ?_)
  split at hfound
  · cases hfound
  · next hchg =>
      cases hfound
      rw [hsame (by simpa using hchg)]
      exact hrefs

end

/-! ### Admission -/

/-- **The occupancy of a job that is not passed over.** -/
theorem wp_occupancy {workload : Option Nat}
    {Q : Post (Nat × Option Int × Option Nat)} (h : Upkeep R C F limits lane)
    (hR : R T s) (hof : admission.Of T) (hknows : admission.KnowsWorkload T workload)
    (hskips : admission.skips job = false)
    (hQ : ∀ occupancy w, admission.KnowsWorkload T occupancy.2.2 → (occupancy.2.1.any (fun limit => decide (limit ≤ (occupancy.1 : Int))) = false → WithinLimits T admission.limits admission.lane job) → Q occupancy s w) :
    wp (admission.occupancy workload job) C Q (fun _ t _ => F t) s v := by
  have hsettled := h.settled hR
  simp only [Admission.skips, Bool.or_eq_false_iff, Bool.and_eq_false_imp, bne_eq_false_iff_eq,
    beq_eq_false_iff_ne] at hskips
  obtain ⟨⟨⟨⟨hcl, -⟩, -⟩, hclass⟩, hlimit⟩ := hskips
  have hkind : ∀ count (limit : Option Int), (limit.any fun limit => decide (limit ≤ (count : Int))) = false →
      ∀ bound, limit = some bound → (count : Int) < bound := by
    intro count limit hany bound hbd
    subst hbd
    simpa using hany
  unfold Admission.occupancy
  split
  · -- The control lane counts its own calls.
    next limit hlane hmcp =>
      rw [wp_pure]
      refine hQ _ v hknows fun _ => ?_
      rw [hlane] at hclass
      simp only [WithinLimits, hlane, hmcp, hcl]
      exact ⟨by simpa using hclass, fun bound hbd => hof.atLimit ⟨.controlQuery, limit⟩ bound hlane hbd
        (by simpa [hmcp] using hlimit), nofun⟩
  · next limit hlane hmcp =>
      have hwithin : ∀ count, count = T.mcpCount admission.cluster .workload →
          ((admission.limits.lookup job.kind).any fun limit => decide (limit ≤ (count : Int))) = false →
          WithinLimits T admission.limits admission.lane job := by
        intro count hcnt hany
        rw [hlane] at hclass
        simp only [WithinLimits, hlane, hmcp, hcl]
        refine ⟨by simpa using hclass, fun bound hbd => hof.atLimit ⟨.workload, limit⟩ bound hlane hbd
          (by simpa [hmcp] using hlimit), fun _ bound hbd => ?_⟩
        rw [← hcnt]
        exact hkind count _ hany bound (by rw [hmcp]; exact hbd)
      split
      · next count =>
          rw [wp_pure]
          exact hQ _ v hknows (hwithin count (hknows count rfl))
      · rw [wp_bind]
        refine hsettled.atRest.wp_activeMcpAdmissionCount hsettled.books.jobs hsettled.books.backed
          hof.reusable ?_ fun _ _ => h.ends hR
        rw [wp_pure]
        refine hQ _ v (fun count hcnt => ?_) (hwithin _ rfl)
        exact (Option.some.inj hcnt).symm
  · next hctrl hworkload =>
      rw [wp_pure]
      refine hQ _ v hknows fun hany => ?_
      have hcnt := hkind _ _ hany
      rw [hof.counts] at hcnt
      rcases hlane : admission.lane with _ | ⟨admissionClass, limit⟩
      · simp only [WithinLimits, hcl]
        exact hcnt
      · have hnot : job.kind ≠ .mcpCall := by
          intro hmcp
          rcases admissionClass with _ | _
          · exact hworkload limit hlane hmcp
          · exact hctrl limit hlane hmcp
        rw [hlane] at hclass
        have hclass : jobMatchesMcpAdmissionClass job admissionClass = true := by simpa using hclass
        have hworkload : admissionClass = .workload := by
          unfold jobMatchesMcpAdmissionClass at hclass
          split at hclass
          · next hmcp _ => exact absurd hmcp hnot
          · exact beq_iff_eq.1 hclass
        unfold WithinLimits
        split
        · next hmcp => exact absurd hmcp hnot
        · next hlane' _ =>
            cases hlane'
            rw [hcl]
            exact ⟨hworkload, hcnt⟩
        · next hlane' => cases hlane'

/-- **The loop of `acquire_next_job`.** -/
theorem wp_leaseFirst (h : Upkeep R C F limits lane) (hR : R T s) (hof : admission.Of T)
    (hlim : admission.limits = limits) (hlane : admission.lane = lane) :
    ∀ (jobs : List RelayJob) (workload : Option Nat) (v : Supply),
      (∀ job ∈ jobs, QueuedJob s job) → admission.KnowsWorkload T workload →
        wp (admission.leaseFirst jobs workload) C (fun _ t _ => F t) (fun _ t _ => F t) s v
  | [], _, _, _, _ => (wp_pure _).2 (h.ends hR)
  | job :: jobs, workload, v, hjobs, hknows => by
      have hrest : ∀ workload v, admission.KnowsWorkload T workload →
          wp (admission.leaseFirst jobs workload) C (fun _ t _ => F t)
            (fun _ t _ => F t) s v := fun workload v =>
        h.wp_leaseFirst hR hof hlim hlane jobs workload v fun j hj => hjobs j (.tail _ hj)
      unfold Admission.leaseFirst
      refine wp_cases (fun _ => hrest workload v hknows) fun hskips => ?_
      rw [wp_bind]
      refine h.wp_readOnly hR (readOnly_jobHasPendingExecutionCleanup ..) fun cleanup w => ?_
      refine wp_cases (fun _ => hrest workload w hknows) fun _ => ?_
      rw [wp_bind]
      refine h.wp_occupancy hR hof hknows (by simpa using hskips) fun occupancy w hknows' hwithin => ?_
      refine wp_cases (fun _ => hrest _ w hknows') fun hroom => ?_
      have hadm : Admissible T s admission.endpointId limits lane job :=
        ⟨hjobs job (.head _), hof.idle, by
          rw [← hlim, ← hlane]
          exact hwithin (by simpa using hroom)⟩
      rw [wp_bind, hof.total]
      refine wp_imp (h.lease hR hadm) fun lease t w ht => ?_
      exact (wp_pure _).2 ht

section

variable (h : Upkeep R C F limits lane) (hR : R T s)
  (hreuse : ∀ refs, reusable = some refs → Snapshot T refs)

include h hR hreuse

/-- A lane that is found below its limit holds fewer live MCP leases of its class than the limit
allows. -/
theorem wp_laneAtLimit {Q : Post Bool}
    (hQ : ∀ atLimit, (∀ lane' limit, lane = some lane' → lane'.limit = some limit → atLimit = false → (T.mcpCount cluster lane'.admissionClass : Int) < limit) → Q atLimit s v) :
    wp (laneAtLimit cluster lane reusable) C Q (fun _ t _ => F t) s v := by
  have hsettled := h.settled hR
  unfold laneAtLimit
  split
  · next admissionClass limit =>
      rw [wp_bind]
      refine hsettled.atRest.wp_activeMcpAdmissionCount hsettled.books.jobs hsettled.books.backed
        hreuse ?_ fun _ _ => h.ends hR
      refine (wp_pure _).2 (hQ _ fun lane' bound hlane' hbd hbelow => ?_)
      cases hlane'
      cases hbd
      simpa using hbelow
  · next hnone =>
      refine (wp_pure _).2 (hQ _ fun lane' bound hlane' hbd => ?_)
      obtain ⟨admissionClass, limit⟩ := lane'
      simp only at hbd
      subst hbd
      exact absurd hlane' (hnone admissionClass bound)

/-- `acquire_next_job` after the recovery of stale leases. -/
theorem wp_admitNextJob :
    wp (admitNextJob args limits lane reusable) C (fun _ t _ => F t) (fun _ t _ => F t) s v := by
  have hsettled := h.settled hR
  obtain ⟨pair, hholds, hexact⟩ := hsettled.atRest.pair
  unfold admitNextJob
  rw [wp_bind]
  refine hsettled.atRest.wp_activeLeaseForEndpoint hsettled.books.backed.named (h.clusters hR)
    hreuse (fun w hidle => ?_) (fun lease w _ => ?_) fun _ _ _ => h.ends hR
  · simp only [wp_bind]
    refine wp_leaseCapacitySnapshot hholds hexact ?_
    refine wp_cases (fun _ => (wp_pure _).2 (h.ends hR)) fun _ => ?_
    rw [wp_bind]
    refine h.wp_laneAtLimit hR hreuse fun atLimit hatLimit => ?_
    rw [wp_bind]
    refine wp_queuedJobs hsettled.books.jobs (fun id => hsettled.quiet _)
      (fun t ht => h.trail (h.quiet hR ht)) (fun jobs t w ht hjobs => ?_)
      fun _ t _ ht => h.ends (h.quiet hR ht)
    refine h.wp_leaseFirst (h.quiet hR ht) ⟨hidle, hreuse, fun _ => rfl, rfl, hatLimit⟩ rfl rfl
      jobs none w (fun job hjob => (hjobs job hjob).quiet ht) (by rintro _ ⟨⟩)
  · simp only [wp_bind]
    refine h.wp_readOnly hR (readOnly_getJob _) fun job w => ?_
    rw [wp_require]
    exact ⟨fun _ => (wp_pure _).2 (h.ends hR), fun _ => h.ends hR⟩

end

omit [Platform] [Entropy] in
theorem normalizeKindConcurrency_ok {limits' : List (JobKind × Int)}
    (h : normalizeKindConcurrency limits = .ok limits') : limits' = limits := by
  unfold normalizeKindConcurrency at h
  split at h
  · cases h
  · cases h
    rfl

/-- The replay at the start of an operation. -/
theorem wp_recoverPendingTransitions (h : Upkeep R C F limits lane) (hF : F s)
    (hfresh : FreshLeaseIds s) (hQ : ∀ T t w, R T t → NoNew s t → Q () t w) :
    wp recoverPendingTransitions C Q (fun _ t _ => F t) s v := by
  unfold recoverPendingTransitions
  refine wp_then (h.replay hF hfresh) fun _ t w ht => ?_
  obtain ⟨⟨T, hR⟩, hnew⟩ := ht
  exact (wp_pure _).2 (hQ T t w hR hnew)

/-- In a settled store there is nothing to recover, and nothing is written. -/
theorem wp_recoverPendingTransitions_settled (h : Settled T s) (hQ : Q () s v) :
    wp recoverPendingTransitions C Q E s v := by
  have hnone : s.collect intentsListed = [] := by
    refine List.eq_nil_iff_forall_not_mem.2 fun I hI => ?_
    obtain ⟨p, c, hread, hf⟩ := Files.mem_collect.1 hI
    unfold intentsListed at hf
    split at hf
    · rw [h.quiet] at hread
      cases hread
    · cases hf
  unfold recoverPendingTransitions reconcileTransitionIntents
  simp only [wp_bind]
  refine wp_boundedListing (fun _ => ?_) fun hlarge => ?_
  · rw [hnone]
    simpa using hQ
  · rw [hnone] at hlarge
    exact absurd (Nat.zero_le _) hlarge

/-- **`acquire_next_job`.** -/
theorem wp_acquireNextJob (h : Upkeep R C F args.kindConcurrency lane) (hF : F s)
    (hfresh : FreshLeaseIds s) :
    wp (acquireNextJob args lane) C (fun _ t _ => F t) (fun _ t _ => F t) s v := by
  unfold acquireNextJob
  refine wp_ofExcept_then (fun limits hlim => ?_) fun _ _ => hF
  rw [normalizeKindConcurrency_ok hlim]
  refine wp_require_then (fun _ => ?_) fun _ => hF
  rw [wp_bind]
  refine h.wp_recoverPendingTransitions hF hfresh fun T t w hR _ => ?_
  rw [wp_bind]
  refine h.wp_readOnly hR readOnly_requireIndexMigrationComplete fun _ w => ?_
  rw [wp_bind]
  exact h.wp_recoverStaleJobsForAdmission hR fun reusable T' u w hR' hreuse =>
    h.wp_admitNextJob hR' hreuse

/-! ### Acquiring one exact job -/

/-- Leasing a queued job of the cluster. -/
theorem wp_admitExactJob {Q : Post (Option Lease)} (h : Upkeep R C F limits none)
    (hR : R T s) (hidle : T.Idle args.endpointId) (hjob : QueuedJob s job)
    (hcl : job.cluster = args.cluster) (hnone : ∀ w, Q none s w)
    (hsome : ∀ lease t w, F t → Q (some lease) t w) :
    wp (admitExactJob args limits job) C Q (fun _ t _ => F t) s v := by
  obtain ⟨pair, hholds, hexact⟩ := (h.settled hR).atRest.pair
  unfold admitExactJob
  rw [wp_bind]
  refine h.wp_readOnly hR (readOnly_jobHasPendingExecutionCleanup ..) fun cleanup w => ?_
  refine wp_cases (fun _ => (wp_pure _).2 (hnone w)) fun _ => ?_
  rw [wp_bind]
  refine wp_leaseCapacitySnapshot hholds hexact ?_
  refine wp_cases (fun _ => (wp_pure _).2 (hnone w)) fun _ => ?_
  refine wp_cases (fun _ => (wp_pure _).2 (hnone w)) fun hroom => ?_
  have hadm : Admissible T s args.endpointId limits none job := by
    refine ⟨hjob, hidle, fun limit hlimit => ?_⟩
    rw [hlimit, hcl.symm] at hroom
    simpa using hroom
  refine wp_then (h.lease hR hadm) fun lease t w ht => ?_
  exact (wp_pure _).2 (hsome lease t w ht)

/-- **`acquire_job`.** -/
theorem wp_acquireJob (h : Upkeep R C F args.kindConcurrency none) (hF : F s)
    (hfresh : FreshLeaseIds s) :
    wp (acquireJob jobId args) C (fun _ t _ => F t) (fun _ t _ => F t) s v := by
  unfold acquireJob
  refine wp_ofExcept_then (fun limits hlim => ?_) fun _ _ => hF
  rw [normalizeKindConcurrency_ok hlim, wp_bind]
  refine h.wp_recoverPendingTransitions hF hfresh fun T t w hR _ => ?_
  rw [wp_bind]
  refine h.wp_readOnly hR readOnly_requireIndexMigrationComplete fun _ w => ?_
  rw [wp_bind]
  refine h.wp_recoverStaleJobsForAdmission hR fun reusable T' u w hR' hreuse => ?_
  have hsettled := h.settled hR'
  unfold admitJob
  rw [wp_bind]
  refine hsettled.atRest.wp_activeLeaseForEndpoint hsettled.books.backed.named (h.clusters hR')
    hreuse (fun w hidle => ?_) (fun lease w _ => (wp_pure _).2 (h.ends hR'))
    fun _ _ _ => h.ends hR'
  simp only [wp_bind]
  refine wp_getJob hsettled.books.jobs (fun job hjob => ?_) fun _ _ => h.ends hR'
  have hname := hsettled.books.jobs.named _ _ hjob
  refine wp_cases (fun _ => (wp_pure _).2 (h.ends hR')) fun hadmit => ?_
  simp only [not_or, ne_eq, not_not] at hadmit
  exact h.wp_admitExactJob hR' hidle ⟨by rw [hname]; exact hjob, hadmit.2.1⟩ hadmit.1
    (fun _ => h.ends hR') fun lease t w ht => ht

/-! ### Recovery and release -/

section

variable (h : Upkeep R C F limits lane) (hF : F s) (hfresh : FreshLeaseIds s)

include h hF hfresh

/-- **`recover_stale_jobs`.** -/
theorem wp_recoverStaleJobs :
    wp (recoverStaleJobs cluster maxAttempts) C (fun _ t _ => F t) (fun _ t _ => F t) s v := by
  unfold recoverStaleJobs
  rw [wp_bind]
  refine readOnly_requireIndexMigrationComplete.wp (fun _ w => ?_) fun _ _ => hF
  rw [wp_bind]
  refine h.wp_recoverPendingTransitions hF hfresh fun T t w hR _ => ?_
  exact h.wp_recoverStaleJobsUnlocked hR fun jobs T' u w hR' => h.ends hR'

/-- **`release_lease`.** -/
theorem wp_releaseLease :
    wp (releaseLease leaseId) C (fun _ t _ => F t) (fun _ t _ => F t) s v := by
  unfold releaseLease
  rw [wp_bind]
  refine h.wp_recoverPendingTransitions hF hfresh fun T t w hR _ => ?_
  have hsettled := h.settled hR
  unfold releaseCanonicalLease
  rw [wp_bind]
  refine wp_readLease hsettled.atRest hsettled.books.backed.named ?_
  rcases he : T.read leaseId with _ | e
  · exact (wp_pure _).2 (h.ends hR)
  · have hname := hsettled.books.backed.named _ _ he
    have hlive : T.read e.lease.leaseId = some e := by
      rw [hname]
      exact he
    refine wp_imp (h.delete none hR hlive fun found hfound => by cases hfound)
      fun _ u w hu => h.ends hu.1

/-- **`renew_lease`**, from what the invariant offers for the renewal itself. -/
theorem wp_renewLease {ttlSeconds : Int}
    (hrenew : ∀ T t w, R T t → NoNew s t → wp (renewCanonicalLease leaseId ttlSeconds) C (fun _ u _ => F u) (fun _ u _ => F u) t w) :
    wp (renewLease leaseId ttlSeconds) C (fun _ t _ => F t) (fun _ t _ => F t) s v := by
  unfold renewLease
  rw [wp_bind]
  refine readOnly_requireIndexMigrationComplete.wp (fun _ w => ?_) fun _ _ => hF
  rw [wp_bind]
  exact h.wp_recoverPendingTransitions hF hfresh fun T t w hR hnew => hrenew T t w hR hnew

end

/-! ### Recovering one job -/

/-- Live leases of a job. -/
structure JobLeases (T : LeaseTable) (jobId : DurableRecordId) (leases : List Lease) : Prop where
  live : ∀ lease ∈ leases, ∃ e, T.read lease.leaseId = some e ∧ e.lease = lease
  jobId : ∀ lease ∈ leases, lease.jobId = jobId
  nodup : (leases.map Lease.leaseId).Nodup

section

omit [Platform] [Entropy]

theorem JobLeases.perm (h : JobLeases T jobId leases) (hperm : leases'.Perm leases) :
    JobLeases T jobId leases' :=
  ⟨fun lease hlease => h.live lease (hperm.mem_iff.1 hlease),
    fun lease hlease => h.jobId lease (hperm.mem_iff.1 hlease),
    ((hperm.map Lease.leaseId).nodup_iff).2 h.nodup⟩

theorem JobLeases.sublist (h : JobLeases T jobId leases) (hsub : leases'.Sublist leases) :
    JobLeases T jobId leases' :=
  ⟨fun lease hlease => h.live lease (hsub.subset hlease),
    fun lease hlease => h.jobId lease (hsub.subset hlease),
    h.nodup.sublist (hsub.map Lease.leaseId)⟩

/-- What is kept of a listing of leases, cut at a limit, are leases that the table gives the job,
each once. -/
theorem jobLeases_of_listing {f : (p : Path) → Content p → Option (DurableRecordId × Lease)}
    (hsettled : Settled T s)
    (hlisted : ∀ entry ∈ s.collect f, ∃ e, T.read entry.1 = some e ∧ e.lease = entry.2)
    (hnd : ((s.collect f).map Prod.fst).Nodup) (limit : Nat) (keep : Lease → Bool)
    (hkeep : ∀ entry ∈ s.collect f, keep entry.2 = true → entry.2.jobId = jobId) :
    JobLeases T jobId ((((s.collect f).take limit).map Prod.snd).filter keep) := by
  have hmem : ∀ lease ∈ (((s.collect f).take limit).map Prod.snd).filter keep,
      ∃ entry ∈ s.collect f, entry.2 = lease ∧ keep lease = true := by
    intro lease hlease
    obtain ⟨hlease, hkept⟩ := List.mem_filter.1 hlease
    obtain ⟨entry, hent, rfl⟩ := List.mem_map.1 hlease
    exact ⟨entry, List.mem_of_mem_take hent, rfl, hkept⟩
  have hids : (s.collect f).map (fun entry => entry.2.leaseId) = (s.collect f).map Prod.fst := by
    refine List.map_congr_left fun entry hent => ?_
    obtain ⟨e, he, heq⟩ := hlisted entry hent
    rw [← heq, hsettled.books.backed.named _ e he]
  refine ⟨fun lease hlease => ?_, fun lease hlease => ?_, ?_⟩
  · obtain ⟨entry, hent, rfl, -⟩ := hmem lease hlease
    obtain ⟨e, he, heq⟩ := hlisted entry hent
    refine ⟨e, ?_, heq⟩
    rw [← heq, hsettled.books.backed.named _ e he]
    exact he
  · obtain ⟨entry, hent, rfl, hkept⟩ := hmem lease hlease
    exact hkeep entry hent hkept
  · have hall : ((s.collect f).map fun entry => entry.2.leaseId).Nodup := by
      rw [hids]
      exact hnd
    refine hall.sublist ?_
    have hsub : ((((s.collect f).take limit).map Prod.snd).filter keep).Sublist
        ((s.collect f).map Prod.snd) :=
      List.filter_sublist.trans ((List.take_sublist _ _).map Prod.snd)
    simpa [List.map_map, Function.comp_def] using hsub.map Lease.leaseId

theorem jobLeasesListed_eq_some {p : Path} {c : Content p} {x : DurableRecordId × Lease}
    (h : jobLeasesListed jobId p c = some x) : p = .leaseByJob jobId x.1 := by
  cases p with
  | leaseByJob =>
    simp only [jobLeasesListed, Option.ite_none_right_eq_some, Option.some.injEq] at h
    obtain ⟨rfl, rfl⟩ := h
    rfl
  | _ => cases h

theorem read_of_mem_jobLeasesListed (h : entry ∈ s.collect (jobLeasesListed jobId)) :
    s.read (.leaseByJob jobId entry.1) = some entry.2 := by
  obtain ⟨p, c, hread, hf⟩ := Files.mem_collect.1 h
  obtain rfl := jobLeasesListed_eq_some hf
  simp only [jobLeasesListed, if_true, Option.some.injEq] at hf
  rw [hread, ← hf]

theorem read_of_mem_leasesListed (h : entry ∈ s.collect leasesListed) :
    s.read (.lease entry.1) = some entry.2 := by
  obtain ⟨p, c, hread, hf⟩ := Files.mem_collect.1 h
  obtain rfl := leasesListed_eq_some hf
  rw [hread]
  exact congrArg (Option.map Prod.snd) hf

end

/-- **The leases of a job.** -/
theorem wp_scanJobLeases {limit : Nat} {Q : Post (List Lease × Bool)}
    (h : Upkeep R C F limits lane) (hR : R T s)
    (hQ : ∀ leases truncated, JobLeases T jobId leases → Q (leases, truncated) s v) :
    wp (scanJobLeases jobId limit) C Q (fun _ t _ => F t) s v := by
  have hsettled := h.settled hR
  have hcopies : ∀ entry ∈ s.collect (jobLeasesListed jobId),
      (∃ e, T.read entry.1 = some e ∧ e.lease = entry.2) ∧ entry.2.jobId = jobId := by
    intro entry hent
    have hread := read_of_mem_jobLeasesListed hent
    rw [hsettled.atRest.files (.leaseByJob jobId entry.1) trivial,
      LeaseTable.file_of_key (rfl : leaseKey (.leaseByJob jobId entry.1) = some entry.1)] at hread
    obtain ⟨e, he, hcontent⟩ := Option.bind_eq_some_iff.1 hread
    simp only [LiveLease.content, Option.ite_none_right_eq_some, Option.some.injEq] at hcontent
    exact ⟨⟨e, he, hcontent.2⟩, by rw [← hcontent.2, ← hcontent.1]⟩
  have hleases : ∀ entry ∈ s.collect leasesListed,
      ∃ e, T.read entry.1 = some e ∧ e.lease = entry.2 := by
    intro entry hent
    have hread := read_of_mem_leasesListed hent
    rw [hsettled.atRest.files (.lease entry.1) trivial, LeaseTable.file_lease] at hread
    exact Option.map_eq_some_iff.1 hread
  unfold scanJobLeases
  rw [wp_bind]
  refine wp_recoverPendingTransitions_settled hsettled ?_
  rw [wp_bind, wp_present, wp_ite]
  constructor
  · intro _
    have hnd : ((s.collect (jobLeasesListed jobId)).map Prod.fst).Nodup := by
      refine Files.nodup_map_collect _ fun p c q d x y _ _ hx hy hxy => ?_
      rw [jobLeasesListed_eq_some hx, jobLeasesListed_eq_some hy, hxy]
    have hlist := jobLeases_of_listing hsettled (fun entry hent => (hcopies entry hent).1)
      hnd limit (fun _ => true) fun entry hent _ => (hcopies entry hent).2
    rw [List.filter_true] at hlist
    simp only [scanMany, wp_bind, wp_listing, wp_require, wp_pure]
    exact ⟨fun _ => hQ _ _ (hlist.perm (List.perm_insertionSort _ _)), fun _ => h.ends hR⟩
  · intro _
    have hnd : ((s.collect leasesListed).map Prod.fst).Nodup := by
      refine Files.nodup_map_collect _ fun p c q d x y _ _ hx hy hxy => ?_
      rw [leasesListed_eq_some hx, leasesListed_eq_some hy, hxy]
    simp only [scanMany, wp_bind, wp_listing, wp_require, wp_pure]
    refine ⟨fun _ => hQ _ _ ?_, fun _ => h.ends hR⟩
    exact jobLeases_of_listing hsettled hleases hnd limit _ fun entry hent hkeep => by
      simpa using hkeep

omit [Platform] in
/-- The expired ones of a list, each judged by a reading of its own. -/
theorem wp_expiredLeases {Q : Post (List Lease)} (h : JobLeases T jobId leases)
    (hQ : ∀ expired w, JobLeases T jobId expired → (∀ lease ∈ expired, ∃ n, lease.isExpired (Entropy.clock n) = true) → Q expired s w) :
    wp (expiredLeases leases) C Q E s v := by
  have hloop := wp_gather (C := C) (E := E)
    (fun rest expired t _ => t = s ∧ (expired ++ rest).Sublist leases ∧
      ∀ lease ∈ expired, ∃ n, lease.isExpired (Entropy.clock n) = true)
    (fun lease => do
      let now ← utcNow
      pure (if lease.isExpired now then [lease] else []))
    (fun lease rest expired t w hJ => ?_) leases [] s v ⟨rfl, List.Sublist.refl _, nofun⟩
  · refine wp_imp hloop fun expired t w hJ => ?_
    obtain ⟨rfl, hsub, hexp⟩ := hJ
    rw [List.nil_append, List.append_nil] at hsub
    exact hQ expired w (h.sublist hsub) hexp
  · obtain ⟨rfl, hsub, hexp⟩ := hJ
    rw [wp_bind, wp_utcNow, wp_pure]
    split
    · next hnow =>
        refine ⟨rfl, by rwa [List.append_assoc], fun l hl => ?_⟩
        rcases List.mem_append.1 hl with hl | hl
        · exact hexp l hl
        · rw [List.mem_singleton.1 hl]
          exact ⟨w.ticks, hnow⟩
    · rw [List.append_nil]
      exact ⟨rfl, ((List.sublist_cons_self _ _).append_left expired).trans hsub, hexp⟩

/-- **`recover_stale_job`.** -/
theorem wp_recoverStaleJob (h : Upkeep R C F limits lane) (hF : F s) (hfresh : FreshLeaseIds s) :
    wp (recoverStaleJob jobId cluster maxAttempts) C (fun _ t _ => F t) (fun _ t _ => F t) s v := by
  unfold recoverStaleJob
  refine wp_require_then (fun _ => ?_) fun _ => hF
  rw [wp_bind]
  refine readOnly_requireIndexMigrationComplete.wp (fun _ w => ?_) fun _ _ => hF
  rw [wp_bind]
  refine h.wp_recoverPendingTransitions hF hfresh fun T t w hR _ => ?_
  have hbooks := (h.settled hR).books
  rw [wp_bind]
  refine wp_getJob hbooks.jobs (fun job hjob => ?_) fun _ _ => h.ends hR
  have hname := hbooks.jobs.named _ _ hjob
  have hcanon : t.read (.job job.jobId) = some job := by
    rw [hname]
    exact hjob
  refine wp_require_then (fun _ => ?_) fun _ => h.ends hR
  rw [wp_bind]
  refine h.wp_scanJobLeases hR fun leases truncated hleases => ?_
  refine wp_require_then (fun _ => ?_) fun _ => h.ends hR
  rw [wp_bind]
  refine wp_expiredLeases hleases fun expired w hexp hdue => ?_
  have hjobId : ∀ lease ∈ expired, lease.jobId = job.jobId := fun lease hlease =>
    (hexp.jobId lease hlease).trans hname.symm
  have hlive : ∀ lease ∈ expired, T.read lease.leaseId = some (.of lease job) := by
    intro lease hlease
    obtain ⟨e, he, rfl⟩ := hexp.live lease hlease
    have hjob' : t.read (.job e.lease.jobId) = some job := by
      rw [hjobId e.lease hlease]
      exact hcanon
    rw [he, ← (hbooks.backed.job_of hbooks.jobs he hjob').1.eq_of]
  unfold recoverJobFromLeases
  refine wp_cases (fun _ => (wp_pure _).2 (h.ends hR)) fun hsome => ?_
  rw [wp_ite]
  constructor
  · intro _
    rw [wp_bind]
    refine h.wp_deleteLeases hR hcanon hlive hjobId hexp.nodup fun T' u w hR' _ => ?_
    exact (wp_pure _).2 (h.ends hR')
  · intro hheld
    rw [wp_bind]
    refine h.wp_quiet hR (quiet_jobHasPendingExecutionCleanupAfterMigration cluster job.jobId)
      fun cleanup u w hR' hu => ?_
    refine wp_cases (fun _ => (wp_pure _).2 (h.ends hR')) fun _ => ?_
    rw [wp_bind]
    refine h.wp_readOnly hR' (readOnly_jobHasSchedulerObservation job) fun observed w => ?_
    refine wp_cases (fun _ => (wp_pure _).2 (h.ends hR')) fun _ => ?_
    have hready : RecoveryDue T u job expired :=
      { canonical := by rw [hu.same (.job job.jobId) trivial, hcanon]
        held := by simpa using hheld
        nonempty := by simpa using hsome
        live := hlive
        jobId := hjobId
        nodup := hexp.nodup
        expired := hdue }
    refine wp_then (h.recover hR' hready) fun _ x w hx => ?_
    exact (wp_pure _).2 (h.ends hx)

end Upkeep

end

end ClioQueue
