/-
# Concurrency limits

The leases of a run stay within the limits that its acquisitions pass.  A limit is
a test on live leases and the number of leases that may pass it (`Bounds`); a
removal or a renewal never raises such a number, and an acquisition that was
admitted raises those only that were below their bound.  The bound holds in the
middle of an operation too: the canonical leases of an interrupted operation are
leases of one of its two tables (`Ledger.cover`).
-/

import ClioQueue.LeaseRuns

namespace ClioQueue

open Durable

variable {T : LeaseTable} {e old : LiveLease} {g : LiveLease → Bool}

/-! ### Counting live leases -/

/-- The number of live leases that pass a test. -/
def LeaseTable.countIf (T : LeaseTable) (g : LiveLease → Bool) : Nat := T.count fun _ e => g e

theorem LeaseTable.countIf_remove_le (ids : List DurableRecordId) :
    (T.remove ids).countIf g ≤ T.countIf g :=
  Files.count_le_count fun _ e he hg => ⟨e, (LeaseTable.read_remove_some he).2, hg⟩

theorem LeaseTable.countIf_put (h : T.read e.lease.leaseId = none) :
    (T.put e).countIf g = T.countIf g + if g e then 1 else 0 := by
  unfold LeaseTable.countIf Files.count LeaseTable.put
  rw [Files.write_entries, Files.unlink_of_missing h, List.countP_cons]

/-- A renewal that passes when the old lease did changes no number. -/
theorem LeaseTable.countIf_renew (h : T.read e.lease.leaseId = some old) (hg : g e = g old) :
    (T.put e).countIf g = T.countIf g := by
  refine Files.count_congr fun id => ?_
  by_cases hid : id = e.lease.leaseId
  · subst hid
    rw [LeaseTable.read_put_self, h]
    simp [hg]
  · rw [LeaseTable.read_put_ne hid]

/-- The leases of a cluster are among those counted under its token, which other clusters may
share. -/
theorem LeaseTable.countIf_le_scope (T : LeaseTable) (cluster : String) (kind : JobKind) :
    T.countIf (fun e => e.cluster == cluster && e.kind == kind) ≤
      T.scopes.count (leaseClusterDigest cluster, kind) := by
  unfold LeaseTable.scopes Files.bag Multiset.count LeaseTable.countIf Files.count
  rw [Multiset.coe_countP, List.countP_map]
  refine List.countP_mono_left fun entry _ h => ?_
  rw [Bool.and_eq_true, beq_iff_eq, beq_iff_eq] at h
  simp [LiveLease.scope, h.1, h.2]

theorem LeaseTable.countIf_all (T : LeaseTable) :
    Multiset.card T.scopes = T.countIf fun _ => true := by
  unfold LeaseTable.scopes Files.bag LeaseTable.countIf Files.count
  rw [Multiset.coe_card, List.length_map, List.countP_true]

/-! ### Bounds -/

/-- Tests and the numbers of leases that may pass them. -/
abbrev Bounds : Type := (LiveLease → Bool) → Int → Prop

/-- A table is within its bounds. -/
def Bounds.Hold (B : Bounds) (T : LeaseTable) : Prop :=
  ∀ g bound, B g bound → (T.countIf g : Int) ≤ bound

/-- The tests look at the cluster, the kind and the specification only. -/
def Bounds.OfJobs (B : Bounds) : Prop :=
  ∀ g bound, B g bound → ∀ e old : LiveLease, e.cluster = old.cluster → e.kind = old.kind →
    e.spec = old.spec → g e = g old

variable {B : Bounds}

theorem Bounds.hereditary (B : Bounds) : Hereditary B.Hold := by
  intro T ids h g bound hB
  have hle : ((T.remove ids).countIf g : Int) ≤ T.countIf g :=
    Int.ofNat_le.2 (LeaseTable.countIf_remove_le ids)
  exact hle.trans (h g bound hB)

theorem Bounds.Hold.renew (h : B.Hold T) (hB : B.OfJobs) (hlive : T.read e.lease.leaseId = some old)
    (hrenews : e.Renews old) : B.Hold (T.put e) := by
  intro g bound hg
  rw [LeaseTable.countIf_renew hlive
    (hB g bound hg e old hrenews.cluster hrenews.kind hrenews.spec)]
  exact h g bound hg

/-- An acquisition of a lease that passes only tests with room. -/
theorem Bounds.Hold.acquire (h : B.Hold T) (hnew : T.read e.lease.leaseId = none)
    (hroom : ∀ g bound, B g bound → g e = true → (T.countIf g : Int) < bound) :
    B.Hold (T.put e) := by
  intro g bound hg
  rw [LeaseTable.countIf_put hnew]
  have hle := h g bound hg
  rcases hpass : g e with _ | _
  · simpa using hle
  · have hlt := hroom g bound hg hpass
    rw [if_pos rfl]
    omega

/-! ### The canonical leases of an interrupted operation -/

section

variable [Platform] {P : LeaseTable → Prop} {s : Store}

/-- Every canonical lease is one of the table, on the same job. -/
structure Covers (T : LeaseTable) (s : Store) : Prop where
  backed : T.Backed s
  lease : ∀ id lease, s.read (.lease id) = some lease →
    ∃ e, T.read id = some e ∧ e.lease.jobId = lease.jobId

section

omit [Platform]

/-- The files between two tables of which the second has all leases of the first. -/
theorem Covers.of_moving {T' : LeaseTable} (hT' : T'.Backed s)
    (hmoving : Files.Moving leaseFile T.file T'.file (fun _ => False) s)
    (hsub : ∀ id e, T.read id = some e → ∃ e', T'.read id = some e' ∧
      e'.lease.jobId = e.lease.jobId) : Covers T' s := by
  refine ⟨hT', fun id lease hread => ?_⟩
  rcases hmoving.between (.lease id) trivial with hfile | hfile
  · rw [hread, LeaseTable.file_lease] at hfile
    obtain ⟨e, he, rfl⟩ := Option.map_eq_some_iff.1 hfile.symm
    exact hsub id e he
  · rw [hread, LeaseTable.file_lease] at hfile
    obtain ⟨e, he, rfl⟩ := Option.map_eq_some_iff.1 hfile.symm
    exact ⟨e, he, rfl⟩

/-- The files on the way to a smaller table. -/
theorem Covers.of_removing {ids : List DurableRecordId} (hT : T.Backed s)
    (hmoving : Files.Moving leaseFile T.file (T.remove ids).file (fun _ => False) s) :
    Covers T s :=
  .of_moving hT hmoving.turn fun _ e he => ⟨e, (LeaseTable.read_remove_some he).2, rfl⟩

/-- **The canonical leases are leases of a table that meets `P`.** -/
theorem Ledger.cover (h : Ledger P s) : ∃ T, P T ∧ Covers T s := by
  cases h with
  | @rest T hbooks _ hrest hP =>
    refine ⟨T, hP, hbooks.backed, fun id lease hread => ?_⟩
    rw [hrest.files (.lease id) trivial, LeaseTable.file_lease] at hread
    obtain ⟨e, he, rfl⟩ := Option.map_eq_some_iff.1 hread
    exact ⟨e, he, rfl⟩
  | torn hbooks _ h =>
    cases h with
    | acquire hA h hcur hP hP' =>
      refine ⟨_, hP', .of_moving ?_ h.moving fun id e he => ⟨e, ?_, rfl⟩⟩
      · exact hA.backed_put hbooks.backed hcur
      · rw [LeaseTable.read_put_ne, he]
        rintro rfl
        cases hA.unused.symm.trans he
    | @sync renewed _ _ _ hlive hrenews _ _ _ _ h hP hP' =>
      refine ⟨_, hP', .of_moving (hbooks.backed.renew hlive hrenews) h.moving fun id e he => ?_⟩
      by_cases hid : id = renewed.lease.leaseId
      · subst hid
        rw [hlive] at he
        cases he
        exact ⟨_, LeaseTable.read_put_self, hrenews.jobId⟩
      · exact ⟨e, by rw [LeaseTable.read_put_ne hid, he], rfl⟩
    | delete _ _ _ h hP | recovery _ h _ _ hP =>
      exact ⟨_, hP, .of_removing hbooks.backed h.moving⟩
    | repair _ h hP =>
      refine ⟨_, hP, hbooks.backed, fun id lease hread => ?_⟩
      rw [h.leases] at hread
      obtain ⟨e, he, rfl⟩ := Option.map_eq_some_iff.1 hread
      exact ⟨e, he, rfl⟩

/-- The canonical leases that pass are no more than those of the table. -/
theorem Covers.leasesWith_le {f : RelayJob → Bool} (h : Covers T s)
    (hfg : ∀ e job, LiveLease.IsOf e job → f job = g e) : leasesWith s f ≤ T.countIf g := by
  unfold leasesWith
  rw [List.countP_eq_length_filter]
  have hnd : ((s.collect leasesListed).map Prod.fst).Nodup := by
    refine Files.nodup_map_collect Prod.fst fun p c q d x y _ _ hx hy hxy => ?_
    rw [leasesListed_eq_some hx, leasesListed_eq_some hy, hxy]
  have hsub := (List.filter_sublist (l := s.collect leasesListed)
    (p := fun entry => (s.read (.job entry.2.jobId)).any f)).map Prod.fst
  rw [← List.length_map (f := Prod.fst)]
  refine Files.length_le_count (hnd.sublist hsub) fun id hid => ?_
  obtain ⟨⟨_, lease⟩, hent, rfl⟩ := List.mem_map.1 hid
  obtain ⟨hlist, hpass⟩ := List.mem_filter.1 hent
  obtain ⟨p, c, hread, hc⟩ := Files.mem_collect.1 hlist
  obtain rfl := leasesListed_eq_some hc
  cases hc
  obtain ⟨e, he, hj⟩ := h.lease _ _ hread
  obtain ⟨job, hjob, hof⟩ := h.backed.job _ e he
  rw [← hj, hjob, Option.any_some, hfg e job hof] at hpass
  exact ⟨e, he, hpass⟩

end

/-! ### Runs -/

variable {s₀ t : Store}

/-- Bounds that the admissible acquisitions of a call keep. -/
def Bounds.KeptBy (B : Bounds) (call : LeaseCall) : Prop :=
  ∃ limits lane, call.Uses limits lane ∧ ∀ [Entropy] {T : LeaseTable} {s : Store}
    {endpointId : DurableRecordId} {lease : Lease} {job target : RelayJob}
    {transition : LeaseCapacityTransition}, B.Hold T → WithinLimits T limits lane job →
      AcquisitionBy T s endpointId lease job target transition → B.Hold (T.put (.of lease job))

/-- A lease call, stopped anywhere, keeps each bound that its own admission respects. -/
theorem LeaseCall.StepWith.bounds {A : LeaseCall → Prop} (hB : B.OfJobs)
    (hkept : ∀ call, A call → B.KeptBy call) (h : Ledger B.Hold s)
    (hstep : LeaseCall.StepWith A s t) : Ledger B.Hold t := by
  obtain ⟨_, call, v, hA, hids, hnew, ht⟩ := hstep
  obtain ⟨limits, lane, huses, hacquire⟩ := hkept call hA
  have hkeeps : JobUpkeep (fun _ _ => True) (Standing B.Hold) (Ledger B.Hold) (Ledger B.Hold)
      limits lane := Standing.jobUpkeep B.hereditary fun hstanding hadm hA =>
    hacquire hstanding.holds hadm.within hA
  have hcall := LeaseCall.wp_prog huses hkeeps h hids hnew
    (fun leaseId ttlSeconds _ T t w hR _ => hR.wp_renewCanonicalLease fun old e job hN =>
      hR.holds.renew hB hN.live hN.renews)
    (fun limit T t w hR => hR.wp_repairLeaseIndexes) (v := v)
  exact Prog.wp_halts hcall h t ht

/-- **Bounds hold along every run** whose calls keep them. -/
theorem bounds_of_run {A : LeaseCall → Prop} (hB : B.OfJobs) (hzero : ∀ g bound, B g bound → 0 ≤ bound)
    (hkept : ∀ call, A call → B.KeptBy call) (h₀ : FreshQueue s₀)
    (hrun : Relation.ReflTransGen (LeaseCall.StepWith A) s₀ s) : Ledger B.Hold s := by
  induction hrun with
  | refl =>
    have hsettled := h₀.settled
    exact .rest hsettled.books hsettled.noCapacity hsettled.atRest fun g bound hg => hzero g bound hg
  | tail _ hstep ih => exact hstep.bounds hB hkept ih

/-! ### The limits of the calls -/

variable {limits : List (JobKind × Int)} {control : Int}
  {endpointId : DurableRecordId} {kind : JobKind} {lease : Lease} {call : LeaseCall}
  {transition : LeaseCapacityTransition} {job target : RelayJob} {cluster : String}

/-- The live leases of a cluster and kind. -/
def LiveLease.inScope (cluster : String) (kind : JobKind) (e : LiveLease) : Bool :=
  e.cluster == cluster && e.kind == kind

/-- The live leases of a cluster on MCP calls of a class. -/
def LiveLease.inLane (cluster : String) (admissionClass : McpAdmissionClass) (e : LiveLease) : Bool :=
  e.cluster == cluster && e.kind == .mcpCall && e.inClass admissionClass

/-- The bounds of acquisitions without a lane. -/
inductive KindBounds (limits : List (JobKind × Int)) : Bounds
  | kind {kind : JobKind} {limit : Int} (cluster : String) (h : limits.lookup kind = some limit) :
      KindBounds limits (LiveLease.inScope cluster kind) limit
  | total : KindBounds limits (fun _ => true) maxLiveLeaseRecords

/-- The bounds of acquisitions in MCP lanes. -/
inductive LaneBounds (limits : List (JobKind × Int)) (control : Int) : Bounds
  | workload {limit : Int} (cluster : String) (h : limits.lookup .mcpCall = some limit) :
      LaneBounds limits control (LiveLease.inLane cluster .workload) limit
  | control (cluster : String) :
      LaneBounds limits control (LiveLease.inLane cluster .controlQuery) control
  | kind {kind : JobKind} {limit : Int} (cluster : String) (hne : kind ≠ .mcpCall)
      (h : limits.lookup kind = some limit) :
      LaneBounds limits control (LiveLease.inScope cluster kind) limit
  | total : LaneBounds limits control (fun _ => true) maxLiveLeaseRecords

/-- The acquisitions of a run in MCP lanes: all pass the same limits, and those of the control
lane the same limit of the lane. -/
def LeaseCall.InLanes (limits : List (JobKind × Int)) (control : Int) : LeaseCall → Prop
  | .acquireNextJob args (some lane) => args.kindConcurrency = limits ∧
      (lane.admissionClass = .controlQuery → lane.limit = some control)
  | .acquireNextJob _ none | .acquireJob .. | .submitAndAcquireJob .. => False
  | _ => True

section

omit [Platform]

theorem LiveLease.inScope_ofJobs (cluster : String) (kind : JobKind) (e old : LiveLease)
    (hcl : e.cluster = old.cluster) (hkind : e.kind = old.kind) :
    e.inScope cluster kind = old.inScope cluster kind := by
  rw [LiveLease.inScope, LiveLease.inScope, hcl, hkind]

theorem LiveLease.inLane_ofJobs (cluster : String) (admissionClass : McpAdmissionClass)
    (e old : LiveLease) (hcl : e.cluster = old.cluster) (hkind : e.kind = old.kind)
    (hspec : e.spec = old.spec) :
    e.inLane cluster admissionClass = old.inLane cluster admissionClass := by
  rw [LiveLease.inLane, LiveLease.inLane, LiveLease.inClass, LiveLease.inClass, hcl, hkind, hspec]

theorem KindBounds.ofJobs : (KindBounds limits).OfJobs := by
  intro g _ h e old hcl hkind _
  rcases h with ⟨cluster, _⟩ | _
  · exact LiveLease.inScope_ofJobs cluster _ e old hcl hkind
  · rfl

theorem LaneBounds.ofJobs : (LaneBounds limits control).OfJobs := by
  intro g _ h e old hcl hkind hspec
  cases h with
  | workload cluster | control cluster =>
    exact LiveLease.inLane_ofJobs cluster _ e old hcl hkind hspec
  | kind cluster => exact LiveLease.inScope_ofJobs cluster _ e old hcl hkind
  | total => rfl

theorem AcquisitionBy.total [Entropy]
    (hA : AcquisitionBy T s endpointId lease job target transition) :
    T.countIf (fun _ => true) < maxLiveLeaseRecords := by
  have hsmall := hA.between.after.small
  rw [LeaseTable.countIf_all, LeaseTable.countIf_put hA.unused, if_pos rfl] at hsmall
  exact hsmall

theorem LiveLease.inScope_of (h : (LiveLease.of lease job).inScope cluster kind = true) :
    job.cluster = cluster ∧ job.kind = kind := by
  simpa [LiveLease.inScope, LiveLease.of] using h

theorem LiveLease.inLane_of {admissionClass : McpAdmissionClass}
    (h : (LiveLease.of lease job).inLane cluster admissionClass = true) :
    job.cluster = cluster ∧ job.kind = .mcpCall ∧
      jobMatchesMcpAdmissionClass job admissionClass = true := by
  rw [(LiveLease.of_isOf lease job).inClass]
  simpa [LiveLease.inLane, LiveLease.of, and_assoc] using h

/-- **Acquisitions without a lane keep the kind limits.** -/
theorem KindBounds.keptBy (h : call.Uses limits none) : (KindBounds limits).KeptBy call := by
  refine ⟨limits, none, h, fun {_ T s endpointId lease job target transition} hhold hwithin hA => ?_⟩
  refine hhold.acquire hA.unused fun g bound hg hpass => ?_
  rcases hg with ⟨_, hlim⟩ | _
  · obtain ⟨rfl, rfl⟩ := LiveLease.inScope_of hpass
    exact lt_of_le_of_lt (Int.ofNat_le.2 (T.countIf_le_scope ..)) (hwithin _ hlim)
  · exact Int.ofNat_lt.2 hA.total

theorem jobMatchesMcpAdmissionClass_unique {a b : McpAdmissionClass}
    (ha : jobMatchesMcpAdmissionClass job a = true) (hb : jobMatchesMcpAdmissionClass job b = true) :
    a = b := by
  have hclass : ∃ c, ∀ admissionClass, jobMatchesMcpAdmissionClass job admissionClass = true →
      admissionClass = c := by
    unfold jobMatchesMcpAdmissionClass
    split
    · next spec _ _ =>
        exact ⟨spec.admissionClass, fun admissionClass h => (beq_iff_eq.1 h).symm⟩
    · exact ⟨.workload, fun admissionClass h => beq_iff_eq.1 h⟩
  obtain ⟨c, hc⟩ := hclass
  rw [hc a ha, hc b hb]

/-- An acquisition in a lane keeps the limits of the lanes. -/
theorem LaneBounds.acquire [Entropy] {lane : McpLane}
    (hlane : lane.admissionClass = .controlQuery → lane.limit = some control)
    (hhold : (LaneBounds limits control).Hold T) (hwithin : WithinLimits T limits (some lane) job)
    (hA : AcquisitionBy T s endpointId lease job target transition) :
    (LaneBounds limits control).Hold (T.put (.of lease job)) := by
  refine hhold.acquire hA.unused fun g bound hg hpass => ?_
  cases hg with
  | workload cluster hlim =>
    obtain ⟨rfl, hkind, hclass⟩ := LiveLease.inLane_of hpass
    unfold WithinLimits at hwithin
    rw [hkind] at hwithin
    have hsame := jobMatchesMcpAdmissionClass_unique hwithin.1 hclass
    exact hwithin.2.2 hsame _ hlim
  | control =>
    obtain ⟨rfl, hkind, hclass⟩ := LiveLease.inLane_of hpass
    unfold WithinLimits at hwithin
    rw [hkind] at hwithin
    have hsame := jobMatchesMcpAdmissionClass_unique hwithin.1 hclass
    have hroom := hwithin.2.1 _ (hlane hsame)
    rwa [hsame] at hroom
  | @kind kind limit cluster hne hlim =>
    obtain ⟨rfl, rfl⟩ := LiveLease.inScope_of hpass
    unfold WithinLimits at hwithin
    split at hwithin
    · next hkind => exact absurd hkind hne
    · next hkind =>
        cases ‹some lane = some _›
        exact lt_of_le_of_lt (Int.ofNat_le.2 (T.countIf_le_scope ..)) (hwithin.2 _ hlim)
    · next hnone => cases hnone
  | total => exact Int.ofNat_lt.2 hA.total

/-- **Acquisitions in lanes keep the limits of the lanes.** -/
theorem LaneBounds.keptBy (h : call.InLanes limits control) :
    (LaneBounds limits control).KeptBy call := by
  have hother : call.Uses limits (some ⟨.workload, none⟩) → (LaneBounds limits control).KeptBy call :=
    fun huses => ⟨limits, some ⟨.workload, none⟩, huses, fun hhold hwithin hA =>
      LaneBounds.acquire (fun hclass => by cases hclass) hhold hwithin hA⟩
  cases call with
  | acquireNextJob args lane =>
    rcases lane with _ | lane
    · exact h.elim
    · exact ⟨limits, some lane, ⟨h.1, rfl⟩, fun hhold hwithin hA =>
        LaneBounds.acquire h.2 hhold hwithin hA⟩
  | acquireJob | submitAndAcquireJob => exact h.elim
  | submitJob | renewLease | releaseLease | recoverStaleJobs | recoverStaleJob
  | repairLeaseOperationalIndexes => exact hother trivial

end

/-! ### The limits hold -/

/-- The canonical leases of every limited kind are within its limit, in every cluster. -/
structure KindsWithin (limits : List (JobKind × Int)) (s : Store) : Prop where
  kind : ∀ cluster kind limit, limits.lookup kind = some limit →
    (leasesWith s fun job => job.cluster == cluster && job.kind == kind : Int) ≤ limit
  total : (s.collect leasesListed).length ≤ maxLiveLeaseRecords

/-- The canonical leases on workload and on control MCP calls, and those of every other limited
kind, are within their limits, in every cluster. -/
structure LanesWithin (limits : List (JobKind × Int)) (control : Int) (s : Store) : Prop where
  workload : ∀ cluster limit, limits.lookup .mcpCall = some limit →
    (leasesWith s fun job => job.cluster == cluster && job.kind == .mcpCall &&
      jobMatchesMcpAdmissionClass job .workload : Int) ≤ limit
  control : ∀ cluster, (leasesWith s fun job => job.cluster == cluster && job.kind == .mcpCall &&
    jobMatchesMcpAdmissionClass job .controlQuery : Int) ≤ control
  kind : ∀ cluster kind limit, kind ≠ .mcpCall → limits.lookup kind = some limit →
    (leasesWith s fun job => job.cluster == cluster && job.kind == kind : Int) ≤ limit
  total : (s.collect leasesListed).length ≤ maxLiveLeaseRecords

section

omit [Platform]

/-- A table that covers the store counts at least the leases on disk. -/
theorem Covers.length_le (h : Covers T s) :
    (s.collect leasesListed).length ≤ T.countIf fun _ => true := by
  have hall : leasesWith s (fun _ => true) = (s.collect leasesListed).length := by
    refine List.countP_eq_length.2 fun ⟨id, lease⟩ hent => ?_
    obtain ⟨p, c, hread, hc⟩ := Files.mem_collect.1 hent
    obtain rfl := leasesListed_eq_some hc
    cases hc
    obtain ⟨e, he, hj⟩ := h.lease _ _ hread
    obtain ⟨job, hjob, -⟩ := h.backed.job _ e he
    show ((s.read (.job lease.jobId)).any fun _ => true) = true
    rw [← hj, hjob, Option.any_some]
  rw [← hall]
  exact h.leasesWith_le fun _ _ _ => rfl

theorem LiveLease.IsOf.inScope (h : e.IsOf job) (cluster : String) (kind : JobKind) :
    (job.cluster == cluster && job.kind == kind) = e.inScope cluster kind := by
  rw [LiveLease.inScope, h.1, h.2.1]

theorem LiveLease.IsOf.inLane (h : e.IsOf job) (cluster : String)
    (admissionClass : McpAdmissionClass) :
    (job.cluster == cluster && job.kind == .mcpCall &&
      jobMatchesMcpAdmissionClass job admissionClass) = e.inLane cluster admissionClass := by
  rw [LiveLease.inLane, h.inClass, h.1, h.2.1]

theorem Bounds.Hold.leasesWith_le {f : RelayJob → Bool} {bound : Int} (h : B.Hold T)
    (hcov : Covers T s) (hg : B g bound) (hfg : ∀ e job, LiveLease.IsOf e job → f job = g e) :
    (leasesWith s f : Int) ≤ bound := by
  have hle : (leasesWith s f : Int) ≤ T.countIf g := Int.ofNat_le.2 (hcov.leasesWith_le hfg)
  exact hle.trans (h g bound hg)

theorem limit_pos {limit : Int} (hvalid : normalizeKindConcurrency limits = .ok limits)
    (h : limits.lookup kind = some limit) : 0 ≤ limit := by
  unfold normalizeKindConcurrency at hvalid
  split at hvalid
  · cases hvalid
  · next hnone =>
      have hmem : (kind, limit) ∈ limits := by
        rw [List.lookup_eq_some_iff] at h
        obtain ⟨_, _, rfl, -⟩ := h
        simp
      have hlim := List.find?_eq_none.1 hnone _ hmem
      simp only [decide_eq_true_eq, not_lt] at hlim
      omega

end

/-- **Concurrency limits hold.**  Along every run whose acquisitions pass the same accepted map:
without lanes, every limited kind stays within its limit; in lanes, the workload MCP calls stay
within the limit of their kind, the control calls within the limit of their lane, and every other
limited kind within its limit; and in both cases the leases stay within the global bound. -/
theorem concurrency_limits_of_run (limits : List (JobKind × Int))
    (hvalid : normalizeKindConcurrency limits = .ok limits) (h₀ : FreshQueue s₀) :
    (∀ s, Relation.ReflTransGen (LeaseCall.StepWith (LeaseCall.Uses limits none)) s₀ s →
      KindsWithin limits s) ∧
    (∀ control : Int, 1 ≤ control → ∀ s,
      Relation.ReflTransGen (LeaseCall.StepWith (LeaseCall.InLanes limits control)) s₀ s →
        LanesWithin limits control s) := by
  have hmax : (0 : Int) ≤ (maxLiveLeaseRecords : Int) := Int.natCast_nonneg _
  constructor
  · intro s hrun
    have hledger := bounds_of_run (B := KindBounds limits) KindBounds.ofJobs
      (fun g bound hg => by cases hg with
        | kind _ hlim => exact limit_pos hvalid hlim
        | total => exact hmax) (fun call => KindBounds.keptBy) h₀ hrun
    obtain ⟨T, hhold, hcov⟩ := hledger.cover
    refine ⟨fun cluster kind limit hlim => ?_, ?_⟩
    · exact hhold.leasesWith_le hcov (.kind cluster hlim) fun e job hof =>
        hof.inScope cluster kind
    · exact hcov.length_le.trans (Int.ofNat_le.1 (hhold _ _ .total))
  · intro control _ s hrun
    have hledger := bounds_of_run (B := LaneBounds limits control) LaneBounds.ofJobs
      (fun g bound hg => by cases hg with
        | workload _ hlim | kind _ _ hlim => exact limit_pos hvalid hlim
        | control _ => omega
        | total => exact hmax) (fun call => LaneBounds.keptBy) h₀ hrun
    obtain ⟨T, hhold, hcov⟩ := hledger.cover
    refine ⟨fun cluster limit hlim => ?_, fun cluster => ?_,
      fun cluster kind limit hne hlim => ?_, ?_⟩
    · exact hhold.leasesWith_le hcov (.workload cluster hlim) fun e job hof =>
        hof.inLane cluster .workload
    · exact hhold.leasesWith_le hcov (.control cluster) fun e job hof =>
        hof.inLane cluster .controlQuery
    · exact hhold.leasesWith_le hcov (.kind cluster hne hlim) fun e job hof =>
        hof.inScope cluster kind
    · exact hcov.length_le.trans (Int.ofNat_le.1 (hhold _ _ .total))

/-- A workload call that lists the tools of a server. -/
def sampleMcpJob : RelayJob :=
  { sampleJob with
    kind := .mcpCall
    spec := .mcpCall ⟨"jarvis", none, none, none, .workload, .toolsList, none, [], []⟩ }

/-- An acquisition in the workload lane. -/
def sampleLaneCall : LeaseCall :=
  .acquireNextJob { sampleArgs with kindConcurrency := [(.mcpCall, 1)] } (some ⟨.workload, none⟩)

/-- The call has been submitted. -/
def sampleMcpSubmitted : Store := (LeaseCall.submitJob sampleMcpJob).stopped 100 sampleQueue

omit [Platform] in
/-- A JARVIS job leased without a lane and an MCP call leased in the workload lane are within the
limit of one of their kinds. -/
theorem concurrency_limits_of_run_sample :
    leaseCount (sampleLeased none) "ares" .jarvis = 1 ∧ KindsWithin [(.jarvis, 1)] (sampleLeased none) ∧
      leaseCount (sampleLaneCall.stopped 100 sampleMcpSubmitted) "ares" .mcpCall = 1 ∧
      LanesWithin [(.mcpCall, 1)] 1 (sampleLaneCall.stopped 100 sampleMcpSubmitted) := by
  let := samplePlatform
  refine ⟨by decide +kernel,
    (concurrency_limits_of_run [(.jarvis, 1)] rfl freshQueue_sampleQueue).1 _ ?_, by decide +kernel,
    (concurrency_limits_of_run [(.mcpCall, 1)] rfl freshQueue_sampleQueue).2 1 (le_refl 1) _ ?_⟩
  · exact run_sampleLeased none (by decide +kernel) (by decide +kernel) trivial ⟨rfl, rfl⟩
  · have hsubmit : @LeaseCall.StepWith samplePlatform (LeaseCall.InLanes [(.mcpCall, 1)] 1)
        sampleQueue sampleMcpSubmitted :=
      LeaseCall.step_stopped trivial (by decide +kernel) fun _ => by decide +kernel
    exact .head hsubmit (.single (LeaseCall.step_stopped ⟨rfl, fun h => by cases h⟩
      (by decide +kernel) trivial))

end

end ClioQueue
