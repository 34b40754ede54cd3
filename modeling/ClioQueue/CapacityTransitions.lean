/-
# Capacity transitions

The capacity pair across a lease operation: a transition prepared from an exact
pair carries the pair of the table after the operation, and its application to a
possibly torn pair leaves that pair, from any of the states the application itself
may have been stopped in.
-/

import ClioQueue.LeaseTable

namespace ClioQueue

open Durable Durable.Prog Durable.Files

variable {C : Store → Prop} {E : Post RelayError} {s : Store} {v : Supply}
  {T T' : LeaseTable} {pair : LeaseCapacityPair} {kind : JobKind} {Q : Post LeaseCapacityPair}
  {counts : Multiset LeaseScope} {cluster : String}

/-- The capacity records. -/
def capacityFile : Path → Prop
  | .capacityAggregate | .capacityCheckpoint => True
  | _ => False

/-! ### Reading -/

theorem wp_readLeaseCapacityAggregate (hpair : HoldsPair pair s) (hT : pair.Exact T)
    (hQ : Q pair s v) : wp readLeaseCapacityAggregate C Q E s v := by
  simp [readLeaseCapacityAggregate, readLeaseCapacityComponents, hpair.1, hpair.2,
    hT.valid.aggregate_ok, validateLeaseCapacityPair, hT.bound, hQ]

theorem wp_leaseCapacitySnapshot {Q : Post ((JobKind → Nat) × Nat)}
    (hpair : HoldsPair pair s) (hT : pair.Exact T)
    (hQ : Q (fun kind => T.scopes.count (leaseClusterDigest cluster, kind), Multiset.card T.scopes) s v) :
    wp (leaseCapacitySnapshot cluster) C Q E s v := by
  unfold leaseCapacitySnapshot
  rw [wp_bind]
  refine wp_readLeaseCapacityAggregate hpair hT ?_
  rw [wp_pure, hT.counts, hT.total]
  exact hQ

/-! ### Preparing -/

theorem wp_newLeaseCapacityPair [Entropy] {epochId : Uuid} {generation : Nat}
    (hsmall : Multiset.card T'.scopes ≤ maxLiveLeaseRecords) (hcounts : counts = T'.scopes)
    (hQ : ∀ pair w, pair.Exact T' → Q pair s w) :
    wp (newLeaseCapacityPair counts epochId generation) C Q E s v := by
  subst hcounts
  unfold newLeaseCapacityPair
  simp only [wp_bind, wp_ofExcept, LeaseCapacityPair.Exact.normalize_ok hsmall,
    Except.ok.injEq, reduceCtorEq, false_imp_iff, implies_true, and_true, wp_uuid4, wp_pure]
  rintro _ rfl
  exact hQ _ _ ⟨by simp [LeaseCapacityPair.bound], rfl, rfl, hsmall⟩

/-- The transition from the table `T` to the table `T'`. -/
structure LeaseCapacityTransition.Between (transition : LeaseCapacityTransition)
    (T T' : LeaseTable) : Prop where
  before : transition.before.Exact T
  after : transition.after.Exact T'
  rollback : ∀ pair ∈ transition.rollback, pair.Exact T

/-- **A prepared transition.**  From an exact pair, with deltas that take the counts of `T`
to those of `T'`. -/
theorem wp_prepareLeaseCapacityTransition [Entropy]
    {Q : Post LeaseCapacityTransition} {deltas : List ScopeDelta}
    {includeRollback : Bool} (hpair : HoldsPair pair s) (hT : pair.Exact T)
    (hdeltas : applyScopeDeltas T.scopes deltas = .ok T'.scopes)
    (hsmall : Multiset.card T'.scopes ≤ maxLiveLeaseRecords)
    (hQ : ∀ transition w, transition.Between T T' → transition.before = pair →
      transition.rollback.isSome = includeRollback → Q transition s w) :
    wp (prepareLeaseCapacityTransition deltas includeRollback) C Q E s v := by
  unfold prepareLeaseCapacityTransition
  rw [wp_bind]
  refine wp_readLeaseCapacityAggregate hpair hT ?_
  simp only [wp_bind, wp_ofExcept, hT.counts, hdeltas, Except.ok.injEq, reduceCtorEq,
    false_imp_iff, implies_true, and_true]
  rintro _ rfl
  refine wp_newLeaseCapacityPair hsmall rfl fun after w hafter => ?_
  rcases includeRollback with _ | _
  · simp only [Bool.false_eq_true, if_false, wp_pure]
    exact hQ _ _ ⟨hT, hafter, (by rintro _ ⟨⟩)⟩ rfl rfl
  · simp only [if_true, wp_bind]
    refine wp_newLeaseCapacityPair hT.small rfl fun rollback w hroll => ?_
    rw [wp_pure]
    refine hQ _ _ ⟨hT, hafter, ?_⟩ rfl rfl
    rintro _ ⟨⟩
    exact hroll

/-- A delta of one adds a lease of its scope to the counts. -/
theorem applyScopeDeltas_add :
    applyScopeDeltas counts [⟨cluster, kind, 1⟩] =
      .ok ((leaseClusterDigest cluster, kind) ::ₘ counts) := by
  have hcnt : ¬ (counts.count (leaseClusterDigest cluster, kind) : Int) + 1 < 0 := by omega
  have hset : setScopeCount counts (leaseClusterDigest cluster, kind)
      (counts.count (leaseClusterDigest cluster, kind) + 1) =
        (leaseClusterDigest cluster, kind) ::ₘ counts := by
    ext scope
    by_cases h : scope = (leaseClusterDigest cluster, kind)
    · subst h
      simp [setScopeCount]
    · simp [setScopeCount, h, Multiset.count_replicate, Ne.symm h]
  simp [applyScopeDeltas, ScopeDelta.scope, hcnt, hset]

/-- A negative delta takes the leases of its scope from the counts. -/
theorem applyScopeDeltas_remove {n : Nat} (hn : n ≠ 0) :
    applyScopeDeltas (Multiset.replicate n (leaseClusterDigest cluster, kind) + counts)
      [⟨cluster, kind, -(n : Int)⟩] = .ok counts := by
  have hzero : ¬ -(n : Int) = 0 := by omega
  have hcnt : ((Multiset.replicate n (leaseClusterDigest cluster, kind) + counts).count
      (leaseClusterDigest cluster, kind) : Int) + -(n : Int) =
        counts.count (leaseClusterDigest cluster, kind) := by
    rw [Multiset.count_add, Multiset.count_replicate_self]
    omega
  have hset : setScopeCount (Multiset.replicate n (leaseClusterDigest cluster, kind) + counts)
      (leaseClusterDigest cluster, kind) (counts.count (leaseClusterDigest cluster, kind)) =
        counts := by
    ext scope
    by_cases h : scope = (leaseClusterDigest cluster, kind)
    · subst h
      simp [setScopeCount]
    · simp [setScopeCount, h, Multiset.count_replicate, Ne.symm h]
  have hpos : ¬ (counts.count (leaseClusterDigest cluster, kind) : Int) < 0 := by omega
  simp only [applyScopeDeltas, ScopeDelta.scope, if_neg hzero, hcnt, if_neg hpos,
    Int.toNat_natCast, hset]

/-! ### Applying -/

/-- Writing a valid pair: the aggregate first. -/
theorem wp_writeLeaseCapacityPair {Q : Post Unit} (hval : pair.Valid)
    (hC : ∀ t, Agree capacityFile s t → t.read .capacityAggregate = some pair.aggregate →
      (t.read .capacityCheckpoint = s.read .capacityCheckpoint ∨
        t.read .capacityCheckpoint = some pair.checkpoint) → C t)
    (hQ : ∀ t, Agree capacityFile s t → HoldsPair pair t → Q () t v) :
    wp (writeLeaseCapacityPair pair) C Q E s v := by
  have hagg : Agree capacityFile s (s.write .capacityAggregate pair.aggregate) :=
    agree_write trivial s _
  have hboth : Agree capacityFile s
      ((s.write .capacityAggregate pair.aggregate).write .capacityCheckpoint pair.checkpoint) :=
    hagg.trans (agree_write trivial _ _)
  have hpair : HoldsPair pair
      ((s.write .capacityAggregate pair.aggregate).write .capacityCheckpoint pair.checkpoint) :=
    ⟨by rw [read_write_ne _, read_write_self], read_write_self ..⟩
  simp only [writeLeaseCapacityPair, validateLeaseCapacityPair, hval.bound, if_true, wp_bind,
    wp_ofExcept, reduceCtorEq, false_imp_iff, implies_true, and_true, wp_put]
  rintro _ -
  exact ⟨hC _ hagg (read_write_self ..) (.inl (read_write_ne _)),
    hC _ hboth hpair.1 (.inr hpair.2), hQ _ hboth hpair⟩

theorem LeaseCapacityTransition.select_mem {transition : LeaseCapacityTransition}
    {target : TransitionTarget} (h : transition.select target = some pair) :
    pair ∈ transition.pairs := by
  rcases target with _ | _
  · cases h
    simp [LeaseCapacityTransition.pairs]
  · simp only [LeaseCapacityTransition.select] at h
    simp [LeaseCapacityTransition.pairs, h]

theorem LeaseCapacityTransition.decoded (transition : LeaseCapacityTransition)
    (hval : ∀ pair ∈ transition.pairs, pair.Valid) (label : String) :
    (transition.pairs.mapM fun pair => leaseCapacityPairFromPayload pair label) =
      .ok transition.pairs := by
  generalize transition.pairs = pairs at hval
  induction pairs with
  | nil => rfl
  | cons pair pairs ih =>
    rw [List.mapM_cons, (hval pair (.head _)).payload_ok label, ih fun q hq => hval q (.tail _ hq)]
    rfl

/-- **Applying a transition.**  From a pair torn among the authorized ones, the selected pair
is written, the aggregate first. -/
theorem wp_applyLeaseCapacityTransition_torn {transition : LeaseCapacityTransition}
    {target : TransitionTarget} {label : String} {selected : LeaseCapacityPair}
    (hval : ∀ pair ∈ transition.pairs, pair.Valid)
    (hsel : transition.select target = some selected) (hs : TornAmong transition.pairs s)
    (hC : ∀ t, Agree capacityFile s t →
      t.read .capacityAggregate = some selected.aggregate →
      (t.read .capacityCheckpoint = s.read .capacityCheckpoint ∨
        t.read .capacityCheckpoint = some selected.checkpoint) → C t)
    (hQ : ∀ t, Agree capacityFile s t → HoldsPair selected t → Q selected t v) :
    wp (applyLeaseCapacityTransition transition target label) C Q E s v := by
  have hall : (s.read .capacityAggregate).all (fun a =>
      transition.pairs.any fun pair => a == pair.aggregate) = true := by
    rw [Option.all_eq_true]
    intro a ha
    obtain ⟨pair, hpair, rfl⟩ := hs.aggregate a ha
    exact List.any_eq_true.2 ⟨pair, hpair, by simp⟩
  have hall' : (s.read .capacityCheckpoint).all (fun c =>
      transition.pairs.any fun pair => c == pair.checkpoint) = true := by
    rw [Option.all_eq_true]
    intro c hc
    obtain ⟨pair, hpair, rfl⟩ := hs.checkpoint c hc
    exact List.any_eq_true.2 ⟨pair, hpair, by simp⟩
  have hread : wp readLeaseCapacityComponents C (fun current t w => t = s ∧ w = v ∧
      current = (s.read .capacityAggregate, s.read .capacityCheckpoint)) E s v := by
    rcases hagg : s.read .capacityAggregate with _ | a
    · simp [readLeaseCapacityComponents, read_eq_look, hagg]
    · obtain ⟨pair, hpair, rfl⟩ := hs.aggregate a hagg
      simp [readLeaseCapacityComponents, read_eq_look, hagg, (hval pair hpair).aggregate_ok]
  unfold applyLeaseCapacityTransition
  rw [transition.decoded hval label, wp_bind]
  refine (wp_pure _).2 ?_
  simp only [hsel]
  refine wp_then hread ?_
  rintro _ _ _ ⟨rfl, rfl, rfl⟩
  have hfound := hs.found
  rw [← Bool.or_eq_true] at hfound
  simp only [wp_bind, wp_require, hall, hall', hfound, true_imp_iff, Bool.true_eq_false,
    false_imp_iff, and_true]
  refine wp_writeLeaseCapacityPair (hval _ (LeaseCapacityTransition.select_mem hsel)) hC ?_
  exact fun t ht hpair => (wp_pure _).2 (hQ t ht hpair)

/-- **Applying a transition** to a pair that lacks no record; every state in between is torn
among the authorized pairs. -/
theorem wp_applyLeaseCapacityTransition {transition : LeaseCapacityTransition}
    {target : TransitionTarget} {label : String} {selected : LeaseCapacityPair}
    (hbtw : transition.Between T T') (hsel : transition.select target = some selected)
    (hs : HoldsAmong transition.pairs s)
    (hC : ∀ t, Agree capacityFile s t → HoldsAmong transition.pairs t → C t)
    (hQ : ∀ t, Agree capacityFile s t → HoldsPair selected t → Q selected t v) :
    wp (applyLeaseCapacityTransition transition target label) C Q E s v := by
  have hval : ∀ pair ∈ transition.pairs, pair.Valid := by
    intro pair hpair
    simp only [LeaseCapacityTransition.pairs, List.mem_cons, Option.mem_toList] at hpair
    rcases hpair with rfl | rfl | hpair
    · exact hbtw.before.valid
    · exact hbtw.after.valid
    · exact (hbtw.rollback pair hpair).valid
  have hmem := LeaseCapacityTransition.select_mem hsel
  obtain ⟨⟨a, ha, hra⟩, ⟨c, hc, hrc⟩⟩ := hs
  have htorn : TornAmong transition.pairs s :=
    ⟨fun b hb => ⟨a, ha, Option.some.inj (hb.symm.trans hra)⟩,
      fun b hb => ⟨c, hc, Option.some.inj (hb.symm.trans hrc)⟩, .inl (by simp [hra])⟩
  refine wp_applyLeaseCapacityTransition_torn hval hsel htorn
    (fun t ht hagg hckpt => hC t ht ⟨⟨selected, hmem, hagg⟩, ?_⟩) hQ
  rcases hckpt with hr | hr
  · exact ⟨c, hc, hr.trans hrc⟩
  · exact ⟨selected, hmem, hr⟩

end ClioQueue
