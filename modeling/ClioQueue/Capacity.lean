/-
# The lease-capacity pair

`clio_relay/queue_lease_capacity_state.py` and the pair codecs of
`clio_relay/queue_lease_records.py`: the aggregate and the checkpoint that
anchor the number of live leases of every (cluster, kind) scope, the transition
from one generation of the pair to the next that every lease intent carries, and
its application to a possibly torn pair.
-/

import ClioQueue.Store

namespace ClioQueue

open Durable Durable.Prog

/-- `MAX_LIVE_LEASE_RECORDS`. -/
def maxLiveLeaseRecords : Nat := 10000

/-- `MAX_LEASE_CAPACITY_SCOPES`. -/
def maxLeaseCapacityScopes : Nat := maxLiveLeaseRecords

/-! ### Codecs -/

/-- `normalize_lease_capacity_counts`; the positive counts and non-empty scopes it
demands are those of a multiset. -/
def normalizeLeaseCapacityCounts (counts : Multiset LeaseScope) :
    Except RelayError (Multiset LeaseScope) :=
  if maxLeaseCapacityScopes < counts.dedup.card then
    .error (.conflict
      s!"lease capacity aggregate exceeds its nonzero scope bound of {maxLeaseCapacityScopes}")
  else if maxLiveLeaseRecords < counts.card then
    .error (.conflict
      s!"lease capacity aggregate exceeds its live lease bound of {maxLiveLeaseRecords}")
  else .ok counts

/-- `lease_capacity_aggregate_from_document`. -/
def leaseCapacityAggregateFromDocument (aggregate : LeaseCapacityAggregate) (label : String) :
    Except RelayError LeaseCapacityAggregate :=
  if maxLiveLeaseRecords < aggregate.globalLiveLeases then
    .error (.conflict s!"{label} has invalid identity or count fields")
  else
    match normalizeLeaseCapacityCounts aggregate.clusterKindCounts with
    | .error e => .error e
    | .ok normalized =>
      if normalized.card ≠ aggregate.globalLiveLeases then
        .error (.conflict s!"{label} global and scoped counts disagree")
      else .ok { aggregate with clusterKindCounts := normalized }

/-- The test of `validate_lease_capacity_pair`. -/
def LeaseCapacityPair.bound (pair : LeaseCapacityPair) : Bool :=
  pair.checkpoint.epochId == pair.aggregate.epochId &&
    pair.checkpoint.generation == pair.aggregate.generation &&
    pair.checkpoint.checkpointId == pair.aggregate.checkpointId &&
    pair.checkpoint.aggregateDocument == pair.aggregate

/-- `validate_lease_capacity_pair`. -/
def validateLeaseCapacityPair (pair : LeaseCapacityPair) (label : String) :
    Except RelayError Unit :=
  if pair.bound then .ok () else .error (.conflict s!"{label} aggregate and checkpoint disagree")

/-- `lease_capacity_pair_from_payload`. -/
def leaseCapacityPairFromPayload (pair : LeaseCapacityPair) (label : String) :
    Except RelayError LeaseCapacityPair := do
  let aggregate ← leaseCapacityAggregateFromDocument pair.aggregate s!"{label} aggregate"
  let decoded : LeaseCapacityPair := ⟨aggregate, pair.checkpoint⟩
  validateLeaseCapacityPair decoded label
  pure decoded

/-- `new_lease_capacity_pair`, for a given epoch. -/
def newLeaseCapacityPair [Entropy] (counts : Multiset LeaseScope) (epochId : Uuid) (generation : Nat) :
    Op LeaseCapacityPair := do
  let normalized ← ofExcept (normalizeLeaseCapacityCounts counts)
  let checkpointId ← uuid4
  let aggregate : LeaseCapacityAggregate :=
    { epochId, generation, checkpointId,
      globalLiveLeases := normalized.card, clusterKindCounts := normalized }
  pure ⟨aggregate, { epochId, generation, checkpointId, aggregateDocument := aggregate }⟩

/-! ### Reading and writing the pair -/

/-- `_read_lease_capacity_components_unlocked`. -/
def readLeaseCapacityComponents :
    Op (Option LeaseCapacityAggregate × Option LeaseCapacityCheckpoint) := do
  let aggregate ← read .capacityAggregate
  let checkpoint ← read .capacityCheckpoint
  match aggregate with
  | none => pure (none, checkpoint)
  | some document => do
    let aggregate ← ofExcept
      (leaseCapacityAggregateFromDocument document "lease capacity aggregate")
    pure (some aggregate, checkpoint)

/-- `_read_lease_capacity_aggregate_unlocked`. -/
def readLeaseCapacityAggregate : Op LeaseCapacityPair := do
  let components ← readLeaseCapacityComponents
  match components with
  | (some aggregate, some checkpoint) => do
    let pair : LeaseCapacityPair := ⟨aggregate, checkpoint⟩
    ofExcept (validateLeaseCapacityPair pair "lease capacity pair")
    pure pair
  | _ => raise (.conflict "lease capacity pair is incomplete")

/-- `_write_lease_capacity_pair_unlocked`. -/
def writeLeaseCapacityPair (pair : LeaseCapacityPair) : Op Unit := do
  ofExcept (validateLeaseCapacityPair pair "lease capacity write")
  put .capacityAggregate pair.aggregate
  put .capacityCheckpoint pair.checkpoint

/-! ### Transitions -/

/-- The count of one scope replaced. -/
def setScopeCount (counts : Multiset LeaseScope) (scope : LeaseScope) (n : Nat) :
    Multiset LeaseScope :=
  counts.filter (· ≠ scope) + Multiset.replicate n scope

/-- One entry of `scope_deltas`: a cluster, a kind and a signed count. -/
structure ScopeDelta where
  cluster : String
  kind : JobKind
  delta : Int
  deriving DecidableEq

/-- The scope of a delta. -/
def ScopeDelta.scope (d : ScopeDelta) : LeaseScope := (leaseClusterDigest d.cluster, d.kind)

/-- Apply `scope_deltas` to the counts. -/
def applyScopeDeltas (counts : Multiset LeaseScope) :
    List ScopeDelta → Except RelayError (Multiset LeaseScope)
  | [] => .ok counts
  | d :: deltas =>
    if d.delta = 0 then
      .error (.conflict "lease capacity transition delta must be a nonzero integer")
    else if (counts.count d.scope : Int) + d.delta < 0 then
      .error (.conflict s!"lease capacity transition underflow: {d.cluster}/{d.kind.value}")
    else
      applyScopeDeltas
        (setScopeCount counts d.scope ((counts.count d.scope : Int) + d.delta).toNat) deltas

/-- `_prepare_lease_capacity_transition_unlocked`. -/
def prepareLeaseCapacityTransition [Entropy] (scopeDeltas : List ScopeDelta) (includeRollback : Bool) :
    Op LeaseCapacityTransition := do
  let before ← readLeaseCapacityAggregate
  let counts ← ofExcept (applyScopeDeltas before.aggregate.clusterKindCounts scopeDeltas)
  let after ← newLeaseCapacityPair counts before.aggregate.epochId
    (before.aggregate.generation + 1)
  if includeRollback then do
    let rollback ← newLeaseCapacityPair before.aggregate.clusterKindCounts
      before.aggregate.epochId (after.aggregate.generation + 1)
    pure ⟨before, after, some rollback⟩
  else pure ⟨before, after, none⟩

/-- The `target` of an application. -/
inductive TransitionTarget where
  | after
  | rollback
  deriving DecidableEq, Repr

/-- The pairs a transition authorizes. -/
def LeaseCapacityTransition.pairs (transition : LeaseCapacityTransition) : List LeaseCapacityPair :=
  transition.before :: transition.after :: transition.rollback.toList

/-- The pair a transition selects for a target. -/
def LeaseCapacityTransition.select (transition : LeaseCapacityTransition) :
    TransitionTarget → Option LeaseCapacityPair
  | .after => some transition.after
  | .rollback => transition.rollback

/-- `_apply_lease_capacity_transition_unlocked`. -/
def applyLeaseCapacityTransition (transition : LeaseCapacityTransition)
    (target : TransitionTarget) (label : String) : Op LeaseCapacityPair := do
  let pairs ← ofExcept (transition.pairs.mapM fun pair =>
    leaseCapacityPairFromPayload pair label)
  match transition.select target with
  | none => raise (.conflict s!"{label} has no authorized capacity generation")
  | some selected => do
    let current ← readLeaseCapacityComponents
    require (current.1.all fun a => pairs.any fun pair => a == pair.aggregate)
      (.conflict s!"{label} found an unauthorized aggregate generation")
    require (current.2.all fun c => pairs.any fun pair => c == pair.checkpoint)
      (.conflict s!"{label} found an unauthorized checkpoint generation")
    require (current.1.isSome || current.2.isSome)
      (.conflict s!"{label} found both capacity records missing")
    writeLeaseCapacityPair selected
    pure selected

/-- `_lease_capacity_snapshot`: the counts of a cluster by kind, and the total. -/
def leaseCapacitySnapshot (cluster : String) : Op ((JobKind → Nat) × Nat) := do
  let pair ← readLeaseCapacityAggregate
  pure (fun kind => pair.aggregate.clusterKindCounts.count (leaseClusterDigest cluster, kind),
    pair.aggregate.globalLiveLeases)

end ClioQueue
