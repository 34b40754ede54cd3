/-
# Runs of the lease operations

A run is any sequence of calls of the lease operations, each with its own clock
readings and random identifiers, and each stopped after any of its durable writes
or run to its end.  Every run from a fresh queue keeps the ledger
(`ledger_of_run`), so that whenever no intent with a capacity transition is
pending the capacity pair counts the canonical leases, and whenever no intent is
pending at all the lease indexes are the image of the canonical leases.
-/

import Mathlib
import ClioQueue.LedgerUpkeep

namespace ClioQueue

open Durable Durable.Prog Durable.Files

/-- A call of a lease operation. -/
inductive LeaseCall where
  | submitJob (job : RelayJob)
  | acquireNextJob (args : AcquireArgs) (lane : Option McpLane)
  | acquireJob (jobId : DurableRecordId) (args : AcquireArgs)
  | submitAndAcquireJob (job : RelayJob) (args : AcquireArgs)
  | renewLease (leaseId : DurableRecordId) (ttlSeconds : Int)
  | releaseLease (leaseId : DurableRecordId)
  | recoverStaleJobs (cluster : String) (maxAttempts : Int)
  | recoverStaleJob (jobId : DurableRecordId) (cluster : String) (maxAttempts : Int)
  | repairLeaseOperationalIndexes (limit : Int)

namespace LeaseCall

section

variable [Platform] [Entropy]

/-- What a call runs. -/
def prog : LeaseCall → Op Unit
  | .submitJob job => ClioQueue.submitJob job >>= fun _ => pure ()
  | .acquireNextJob args lane => ClioQueue.acquireNextJob args lane >>= fun _ => pure ()
  | .acquireJob jobId args => ClioQueue.acquireJob jobId args >>= fun _ => pure ()
  | .submitAndAcquireJob job args => ClioQueue.submitAndAcquireJob job args >>= fun _ => pure ()
  | .renewLease leaseId ttlSeconds => ClioQueue.renewLease leaseId ttlSeconds >>= fun _ => pure ()
  | .releaseLease leaseId => ClioQueue.releaseLease leaseId >>= fun _ => pure ()
  | .recoverStaleJobs cluster maxAttempts =>
    ClioQueue.recoverStaleJobs cluster maxAttempts >>= fun _ => pure ()
  | .recoverStaleJob jobId cluster maxAttempts =>
    ClioQueue.recoverStaleJob jobId cluster maxAttempts >>= fun _ => pure ()
  | .repairLeaseOperationalIndexes limit =>
    ClioQueue.repairLeaseOperationalIndexes limit >>= fun _ => pure ()

end

/-- A submission under a new key brings an unused job id. -/
def NewJob (s : Store) : LeaseCall → Prop
  | .submitJob job | .submitAndAcquireJob job _ => FreshJob s job
  | _ => True

/-- The limits and the lane of an acquisition. -/
def Uses (limits : List (JobKind × Int)) (lane : Option McpLane) : LeaseCall → Prop
  | .acquireNextJob args lane' => args.kindConcurrency = limits ∧ lane' = lane
  | .acquireJob _ args | .submitAndAcquireJob _ args => args.kindConcurrency = limits ∧ lane = none
  | _ => True

section

variable [Platform] [Entropy] {A : RelayJob → RelayJob → Prop} {R : LeaseTable → Store → Prop}
  {C F : Store → Prop} {limits : List (JobKind × Int)} {lane : Option McpLane}
  {s : Store} {v : Supply}

omit [Platform] [Entropy] in
theorem wp_drop {α : Type} {m : Op α} (h : wp m C (fun _ t _ => F t) (fun _ t _ => F t) s v) :
    wp (m >>= fun _ => pure ()) C (fun _ t _ => F t) (fun _ t _ => F t) s v := by
  exact wp_then h fun _ _ _ ht => (wp_pure _).2 ht

/-- **One call**, for every invariant that offers the building blocks. -/
theorem wp_prog {call : LeaseCall} (huses : call.Uses limits lane)
    (h : JobUpkeep A R C F limits lane) (hF : F s) (hids : FreshLeaseIds s) (hnew : call.NewJob s)
    (hrenew : ∀ leaseId ttlSeconds, call = .renewLease leaseId ttlSeconds → ∀ T t w, R T t →
      NoNew s t → wp (renewCanonicalLease leaseId ttlSeconds) C (fun _ u _ => F u)
        (fun _ u _ => F u) t w)
    (hrepair : ∀ limit T t w, R T t → wp (repairLeaseIndexes limit) C (fun _ u _ => F u)
      (fun _ u _ => F u) t w) :
    wp call.prog C (fun _ t _ => F t) (fun _ t _ => F t) s v := by
  cases call with
  | submitJob => exact wp_drop (h.wp_submitJob hF hids hnew)
  | acquireNextJob =>
    obtain ⟨rfl, rfl⟩ := huses
    exact wp_drop (h.wp_acquireNextJob hF hids)
  | acquireJob =>
    obtain ⟨rfl, rfl⟩ := huses
    exact wp_drop (h.wp_acquireJob hF hids)
  | submitAndAcquireJob =>
    obtain ⟨rfl, rfl⟩ := huses
    exact wp_drop (h.wp_submitAndAcquireJob hF hids hnew)
  | renewLease leaseId ttlSeconds =>
    exact wp_drop (h.wp_renewLease hF hids fun T t w => hrenew leaseId ttlSeconds rfl T t w)
  | releaseLease => exact wp_drop (h.wp_releaseLease hF hids)
  | recoverStaleJobs => exact wp_drop (h.wp_recoverStaleJobs hF hids)
  | recoverStaleJob => exact wp_drop (h.wp_recoverStaleJob hF hids)
  | repairLeaseOperationalIndexes =>
    refine wp_drop ?_
    unfold ClioQueue.repairLeaseOperationalIndexes
    refine wp_require_then (fun _ => ?_) fun _ => hF
    rw [wp_bind]
    exact h.wp_recoverPendingTransitions hF hids fun T t w hR _ => hrepair _ T t w hR

end

end LeaseCall

/-! ### Runs -/

section

variable [Platform] {s₀ s t : Store}

/-- One of the calls of `A`, stopped after one of its durable writes or run to its end. -/
def LeaseCall.StepWith (A : LeaseCall → Prop) (s t : Store) : Prop :=
  ∃ (_ : Entropy) (call : LeaseCall) (v : Supply), A call ∧ FreshLeaseIds s ∧ call.NewJob s ∧
    t ∈ call.prog.halts s v

/-- One call, stopped after one of its durable writes or run to its end. -/
def LeaseCall.Step : Store → Store → Prop := LeaseCall.StepWith fun _ => True

/-- An initialized queue that has never been used. -/
structure FreshQueue (s : Store) : Prop where
  pair : ∃ pair, HoldsPair pair s ∧ pair.Exact Files.empty
  empty : ∀ p, ¬ capacityFile p → p ≠ .migrationState → s.read p = none

omit [Platform] in
/-- A fresh queue is settled with the empty table: its pair counts nothing, and but for the
migration state no other file is there. -/
theorem FreshQueue.settled (h : FreshQueue s) : Settled Files.empty s := by
  have hnone : ∀ p, ¬ capacityFile p → p ≠ .migrationState → ∀ c, s.read p ≠ some c := by
    intro p hp hp' c hc
    rw [h.empty p hp hp'] at hc
    cases hc
  have hjobs : JobsOk s :=
    ⟨fun id job hjob => (hnone (.job id) (fun hp => hp) (by simp) job hjob).elim,
      fun id job hjob => (hnone (.job id) (fun hp => hp) (by simp) job hjob).elim,
      fun id copy hcopy => (hnone (.jobQueued id) (fun hp => hp) (by simp) copy hcopy).elim,
      fun id hcopy => by
        obtain ⟨copy, hcopy⟩ := Option.isSome_iff_exists.1 hcopy
        exact (hnone (.jobQueued id) (fun hp => hp) (by simp) copy hcopy).elim⟩
  have hnothing : ∀ id e, (Files.empty : LeaseTable).read id ≠ some e := fun id e he => by
    rw [read_empty] at he
    cases he
  have hbacked : LeaseTable.Backed Files.empty s :=
    ⟨fun id e he => (hnothing id e he).elim, fun id e he => (hnothing id e he).elim⟩
  have hquiet : ∀ key, s.read (.intent key) = none := fun key => h.empty _ id (by simp)
  refine ⟨⟨hjobs, fun key I hread => ?_, hbacked⟩, ⟨fun p hp => ?_, h.pair⟩, hquiet⟩
  · rw [hquiet] at hread
    cases hread
  · rw [h.empty p (fun hc => hp.not_capacityFile hc) (by rintro rfl; exact hp)]
    unfold LeaseTable.file
    cases leaseKey p <;> rfl

/-- One call keeps the ledger, wherever it stops. -/
theorem LeaseCall.Step.ledger (h : Ledger (fun _ => True) s) (hstep : LeaseCall.Step s t) :
    Ledger (fun _ => True) t := by
  obtain ⟨_, call, v, -, hids, hnew, ht⟩ := hstep
  have hkeeps : ∀ limits lane, JobUpkeep (fun _ _ => True) (Standing fun _ => True)
      (Ledger fun _ => True) (Ledger fun _ => True) limits lane := fun limits lane =>
    Standing.jobUpkeep (fun _ _ _ => trivial) fun _ _ _ => trivial
  obtain ⟨limits, lane, huses⟩ : ∃ limits lane, call.Uses limits lane := by
    cases call with
    | acquireNextJob => exact ⟨_, _, rfl, rfl⟩
    | acquireJob | submitAndAcquireJob => exact ⟨_, none, rfl, rfl⟩
    | _ => exact ⟨[], none, trivial⟩
  have hcall := LeaseCall.wp_prog huses (hkeeps limits lane) h hids hnew
    (fun leaseId ttlSeconds _ T t w hR _ => hR.wp_renewCanonicalLease fun _ _ _ _ => trivial)
    (fun limit T t w hR => hR.wp_repairLeaseIndexes) (v := v)
  exact wp_halts hcall h t ht

/-- **Every run keeps the ledger.** -/
theorem ledger_of_run (h₀ : FreshQueue s₀) (hrun : Relation.ReflTransGen LeaseCall.Step s₀ s) :
    Ledger (fun _ => True) s := by
  induction hrun with
  | refl =>
    have hsettled := h₀.settled
    exact .rest hsettled.books hsettled.noCapacity hsettled.atRest trivial
  | tail _ hstep ih => exact hstep.ledger ih

end

/-! ### A sample run -/

theorem read_intent_of_listing {s : Store} (h : s.collect intentsListed = []) (key : IntentKey) :
    s.read (.intent key) = none := by
  rcases hread : s.read (.intent key) with _ | I
  · rfl
  · have hmem : I ∈ s.collect intentsListed := Files.mem_collect.2 ⟨_, _, hread, rfl⟩
    rw [h] at hmem
    cases hmem

theorem samplePair_epoch : ("00000000000000000000000000000000".toList.length == 32 &&
    "00000000000000000000000000000000".toList.all fun c =>
      ('0' ≤ c && c ≤ '9') || ('a' ≤ c && c ≤ 'f')) = true := by decide

/-- The zero pair of a fresh queue. -/
def samplePair : LeaseCapacityPair :=
  let epochId : Uuid := ⟨"00000000000000000000000000000000", samplePair_epoch⟩
  let aggregate : LeaseCapacityAggregate := ⟨epochId, 1, epochId, 0, 0⟩
  ⟨aggregate, ⟨epochId, 1, epochId, aggregate⟩⟩

/-- A fresh queue. -/
def sampleQueue : Store :=
  ((Files.empty.write .capacityAggregate samplePair.aggregate).write .capacityCheckpoint
    samplePair.checkpoint).write .migrationState
      ⟨true, true, true, true, some samplePair.aggregate.epochId, 1, 0⟩

theorem freshQueue_sampleQueue : FreshQueue sampleQueue := by
  have hexact : samplePair.Exact Files.empty := ⟨by decide, rfl, rfl, Nat.zero_le _⟩
  refine ⟨⟨samplePair, ⟨?_, ?_⟩, hexact⟩, fun p hp hp' => ?_⟩
  · exact (read_write_ne _).trans ((read_write_ne _).trans (read_write_self ..))
  · exact (read_write_ne _).trans (read_write_self ..)
  · have haggregate : p ≠ .capacityAggregate := fun heq => hp (by rw [heq]; trivial)
    have hckpt : p ≠ .capacityCheckpoint := fun heq => hp (by rw [heq]; trivial)
    unfold sampleQueue
    rw [read_write_ne _ hp', read_write_ne _ hckpt, read_write_ne _ haggregate, read_empty]

/-- An acquisition by an endpoint of the cluster. -/
def sampleArgs : AcquireArgs where
  endpointId := ⟨"endpoint_1", by decide⟩
  cluster := "ares"
  ttlSeconds := 60
  maxAttempts := 3
  kindConcurrency := [(.jarvis, 1)]

/-- The store that a call leaves when it stops after some writes, or at its end. -/
def LeaseCall.stopped (call : LeaseCall) (writes : Nat) (s : Store) : Store :=
  let m := @LeaseCall.prog samplePlatform sampleEntropy call
  (m.halts s sampleSupply).getD writes (m.run s sampleSupply).store

theorem LeaseCall.step_stopped {A : LeaseCall → Prop} {call : LeaseCall} {writes : Nat} {s : Store}
    (hA : A call)
    (hid : s.read (.lease ⟨"lease_00000000000000000000000000000000", by decide⟩) = none)
    (hnew : call.NewJob s) : @LeaseCall.StepWith samplePlatform A s (call.stopped writes s) := by
  let := samplePlatform
  let := sampleEntropy
  refine ⟨sampleEntropy, call, sampleSupply, hA, fun n id hok => ?_, hnew, ?_⟩
  · have hsample : idOf "lease" (sampleEntropy.uuids 0) =
        .ok ⟨"lease_00000000000000000000000000000000", by decide⟩ := by decide
    cases hsample.symm.trans hok
    exact hid
  · unfold LeaseCall.stopped
    rw [List.getD_eq_getElem?_getD]
    rcases hget : (call.prog.halts s sampleSupply)[writes]? with _ | t
    · exact List.mem_append_right _ (.head _)
    · exact List.mem_of_getElem? hget

/-- The job has been submitted. -/
def sampleSubmitted : Store := (LeaseCall.submitJob sampleJob).stopped 100 sampleQueue

/-- An acquisition has stopped after three writes. -/
def sampleTorn (lane : Option McpLane) : Store :=
  (LeaseCall.acquireNextJob sampleArgs lane).stopped 3 sampleSubmitted

/-- Another one has replayed it and is complete. -/
def sampleLeased (lane : Option McpLane) : Store :=
  (LeaseCall.acquireNextJob sampleArgs lane).stopped 100 (sampleTorn lane)

theorem run_sampleLeased {A : LeaseCall → Prop} (lane : Option McpLane) (hsub : sampleSubmitted.read
      (.lease ⟨"lease_00000000000000000000000000000000", by decide⟩) = none)
    (htorn : (sampleTorn lane).read
      (.lease ⟨"lease_00000000000000000000000000000000", by decide⟩) = none)
    (hsubmit : A (.submitJob sampleJob)) (hacquire : A (.acquireNextJob sampleArgs lane)) :
    Relation.ReflTransGen (@LeaseCall.StepWith samplePlatform A) sampleQueue (sampleLeased lane) := by
  have h₁ : @LeaseCall.StepWith samplePlatform A sampleQueue sampleSubmitted :=
    LeaseCall.step_stopped hsubmit (by decide +kernel) fun _ => by decide +kernel
  have h₂ : @LeaseCall.StepWith samplePlatform A sampleSubmitted (sampleTorn lane) :=
    LeaseCall.step_stopped hacquire hsub trivial
  have h₃ : @LeaseCall.StepWith samplePlatform A (sampleTorn lane) (sampleLeased lane) :=
    LeaseCall.step_stopped hacquire htorn trivial
  exact .head h₁ (.head h₂ (.single h₃))

theorem run_sampleLeased_none :
    Relation.ReflTransGen (@LeaseCall.Step samplePlatform) sampleQueue (sampleLeased none) :=
  run_sampleLeased none (by decide +kernel) (by decide +kernel) trivial trivial

theorem intents_sampleLeased : ∀ key, (sampleLeased none).read (.intent key) = none :=
  read_intent_of_listing (by decide +kernel)

section

variable [Platform] {s₀ s t : Store}

/-! ### The capacity pair -/

/-- The number of canonical lease records whose job passes a test. -/
def leasesWith (s : Store) (f : RelayJob → Bool) : Nat :=
  (s.collect leasesListed).countP fun entry => (s.read (.job entry.2.jobId)).any f

/-- The canonical lease records whose job has this cluster and kind. -/
def leaseCount (s : Store) (cluster : String) (kind : JobKind) : Nat :=
  leasesWith s fun job => job.cluster == cluster && job.kind == kind

/-- The capacity pair is valid and counts the canonical leases, those of a scope by the cluster
tokens of their jobs. -/
structure CapacityCounts (s : Store) (pair : LeaseCapacityPair) : Prop where
  decodes : ∀ v, (readLeaseCapacityAggregate.run s v).result = .ok pair
  scopes : ∀ scope, pair.aggregate.clusterKindCounts.count scope =
    leasesWith s fun job => job.scope == scope
  total : pair.aggregate.globalLiveLeases = (s.collect leasesListed).length

omit [Platform] in
/-- The number of leases that a table has in a scope is the number of lease files whose job has
it. -/
theorem LeaseTable.count_scopes {T : LeaseTable} (hT : T.Backed s)
    (hfiles : ∀ id, s.read (.lease id) = (T.read id).map LiveLease.lease) (scope : LeaseScope) :
    T.scopes.count scope = leasesWith s fun job => job.scope == scope := by
  unfold leasesWith
  rw [(leasesListed_perm hfiles).countP_eq, List.countP_map]
  unfold LeaseTable.scopes Files.bag Multiset.count
  rw [Multiset.coe_countP, List.countP_map]
  refine List.countP_congr fun entry hent => ?_
  have hread := Files.mem_entries.1 hent
  obtain ⟨job, hjob, hcl, hkind, -⟩ := hT.job _ _ hread
  simp only [Function.comp_apply, hjob, Option.any_some, LiveLease.scope, RelayJob.scope,
    decide_eq_true_eq, beq_iff_eq, hcl, hkind]
  exact eq_comm

omit [Platform] in
/-- At rest the pair on disk is valid and counts the live leases, by cluster and by kind. -/
theorem AtRest.capacityCounts {T : LeaseTable} (hrest : AtRest T s) (hbooks : Books T s) :
    ∃ pair, CapacityCounts s pair := by
  obtain ⟨pair, hholds, hexact⟩ := hrest.pair
  have hfiles : ∀ id, s.read (.lease id) = (T.read id).map LiveLease.lease := fun id =>
    (hrest.files (.lease id) trivial).trans LeaseTable.file_lease
  refine ⟨pair, fun v => ?_, fun scope => ?_, ?_⟩
  · have hread : wp readLeaseCapacityAggregate (fun _ => True)
        (fun found _ _ => found = pair) (fun _ _ _ => False) s v :=
      wp_readLeaseCapacityAggregate hholds hexact rfl
    have hres := hread.2
    rcases hr : (readLeaseCapacityAggregate.run s v).result with err | found
    · rw [hr] at hres
      exact hres.elim
    · rw [hr] at hres
      rw [hres]
  · rw [hexact.counts]
    exact LeaseTable.count_scopes hbooks.backed hfiles scope
  · rw [hexact.total, (leasesListed_perm hfiles).length_eq, List.length_map]
    unfold LeaseTable.scopes Files.bag
    rw [Multiset.coe_card, List.length_map]

omit [Platform] in
/-- Among clusters whose tokens differ, the leases of a scope are those of its cluster. -/
theorem leasesWith_scope {clusters : Set String}
    (hused : ∀ id job, s.read (.job id) = some job → job.cluster ∈ clusters)
    (hdiffer : clusters.InjOn leaseClusterDigest) {cluster : String} (hcluster : cluster ∈ clusters)
    (kind : JobKind) :
    leasesWith s (fun job => job.scope == (leaseClusterDigest cluster, kind)) =
      leaseCount s cluster kind := by
  refine List.countP_congr fun entry _ => ?_
  rcases hjob : s.read (.job entry.2.jobId) with _ | job
  · exact Iff.rfl
  · simp only [Option.any_some, RelayJob.scope, beq_iff_eq, Prod.mk.injEq, Bool.and_eq_true]
    exact and_congr_left fun _ => hdiffer.eq_iff (hused _ _ hjob) hcluster

/-- **The capacity pair is exact** whenever no intent with a capacity transition is pending.  The
tokens it counts by are digests: they tell clusters apart as long as those in use have
different ones. -/
theorem capacity_exact_of_run {clusters : Set String} (h₀ : FreshQueue s₀)
    (hrun : Relation.ReflTransGen LeaseCall.Step s₀ s)
    (hquiet : ∀ key I, s.read (.intent key) = some I → I.carriesCapacity = false)
    (hused : ∀ id job, s.read (.job id) = some job → job.cluster ∈ clusters)
    (hdiffer : clusters.InjOn leaseClusterDigest) :
    ∃ pair, CapacityCounts s pair ∧ ∀ cluster ∈ clusters, ∀ kind,
      pair.aggregate.clusterKindCounts.count (leaseClusterDigest cluster, kind) =
        leaseCount s cluster kind := by
  rcases ledger_of_run h₀ hrun with ⟨hbooks, _, hrest, _⟩ | ⟨hbooks, halone, htorn⟩
  · obtain ⟨pair, hpair⟩ := hrest.capacityCounts hbooks
    exact ⟨pair, hpair, fun cluster hcluster kind =>
      (hpair.scopes _).trans (leasesWith_scope hused hdiffer hcluster kind)⟩
  · have hpend := hquiet _ _ htorn.intent
    rw [← TransitionIntent.carriesCapacity_key, htorn.carriesCapacity] at hpend
    cases hpend

omit [Platform] in
/-- The capacity pair counts the one lease of the sample run, whose cluster is one of two. -/
theorem capacity_exact_of_run_sample :
    leaseCount (sampleLeased none) "ares" .jarvis = 1 ∧
      ∃ pair, CapacityCounts (sampleLeased none) pair ∧
        ∀ cluster ∈ ({"ares", "theta"} : Set String), ∀ kind,
          pair.aggregate.clusterKindCounts.count (leaseClusterDigest cluster, kind) =
            leaseCount (sampleLeased none) cluster kind := by
  let := samplePlatform
  have hjobs : leaseCount (sampleLeased none) "ares" .jarvis = 1 ∧
      ((sampleLeased none).collect jobRecords).all (fun job => job.cluster == "ares") = true ∧
        leaseClusterDigest "ares" ≠ leaseClusterDigest "theta" := by decide +kernel
  refine ⟨hjobs.1, capacity_exact_of_run freshQueue_sampleQueue run_sampleLeased_none
    (fun key I hread => ?_) (fun id job hread => ?_) ?_⟩
  · rw [intents_sampleLeased] at hread
    cases hread
  · exact .inl (beq_iff_eq.1 (List.all_eq_true.1 hjobs.2.1 job
      (Files.mem_collect.2 ⟨.job id, job, hread, rfl⟩)))
  · rintro _ (rfl | rfl) _ (rfl | rfl) h
    · rfl
    · exact absurd h hjobs.2.2
    · exact absurd h.symm hjobs.2.2
    · rfl

/-! ### The lease indexes -/

/-- The lease files are exactly those of the canonical leases: every canonical lease has its copy
and its index files, computed from the record and its job, and there is no other file. -/
structure IndexesAgree (s : Store) : Prop where
  lease : ∀ id lease, s.read (.lease id) = some lease → lease.leaseId = id ∧
    ∃ job, s.read (.job lease.jobId) = some job ∧
      ∀ p ∈ (LiveLease.of lease job).files, s.read p = (LiveLease.of lease job).content p
  file : ∀ p, leaseFile p → (s.read p).isSome → ∃ lease job,
    s.read (.lease lease.leaseId) = some lease ∧ s.read (.job lease.jobId) = some job ∧
      p ∈ (LiveLease.of lease job).files

omit [Platform] in
/-- In a settled store the lease indexes are the exact image of the lease records. -/
theorem Settled.indexesAgree {T : LeaseTable} (h : Settled T s) : IndexesAgree s := by
  have hT := h.books.backed
  constructor
  · intro id lease hlease
    rw [h.read_lease] at hlease
    obtain ⟨e, he, rfl⟩ := Option.map_eq_some_iff.1 hlease
    obtain ⟨job, hjob, hof⟩ := hT.job id e he
    refine ⟨hT.named id e he, job, hjob, fun p hp => ?_⟩
    rw [← hof.eq_of] at hp ⊢
    rw [h.atRest.files p (LiveLease.leaseFile_files hp), LeaseTable.file_live hT.named he hp]
  · intro p hp hsome
    rw [h.atRest.files p hp] at hsome
    unfold LeaseTable.file at hsome
    obtain ⟨id, hkey⟩ : ∃ id, leaseKey p = some id := by
      rcases hk : leaseKey p with _ | id
      · rw [hk] at hsome
        cases hsome
      · exact ⟨id, rfl⟩
    rw [hkey] at hsome
    rcases he : T.read id with _ | e
    · rw [Option.bind_some, he] at hsome
      cases hsome
    · rw [Option.bind_some, he, Option.bind_some] at hsome
      obtain ⟨job, hjob, hof⟩ := hT.job id e he
      have hid := hT.named id e he
      refine ⟨e.lease, job, ?_, hjob, ?_⟩
      · rw [h.read_lease, hid, he]
        rfl
      · rw [← hof.eq_of]
        by_contra hnot
        rw [LiveLease.content_eq_none (by rw [hkey, hid]) hnot] at hsome
        cases hsome

/-- **The lease indexes agree with the leases** whenever no intent is pending. -/
theorem lease_indexes_agree_of_run (h₀ : FreshQueue s₀)
    (hrun : Relation.ReflTransGen LeaseCall.Step s₀ s)
    (hquiet : ∀ key, s.read (.intent key) = none) : IndexesAgree s := by
  rcases ledger_of_run h₀ hrun with ⟨hbooks, _, hrest, _⟩ | ⟨hbooks, halone, htorn⟩
  · exact Settled.indexesAgree ⟨hbooks, hrest, hquiet⟩
  · have hpend := htorn.intent
    rw [hquiet] at hpend
    cases hpend

omit [Platform] in
/-- The lease of the sample run has its index files, and there is no other. -/
theorem lease_indexes_agree_of_run_sample :
    ((sampleLeased none).collect leasesListed).length = 1 ∧ IndexesAgree (sampleLeased none) := by
  let := samplePlatform
  exact ⟨by decide +kernel, lease_indexes_agree_of_run freshQueue_sampleQueue
    run_sampleLeased_none intents_sampleLeased⟩

end

end ClioQueue
