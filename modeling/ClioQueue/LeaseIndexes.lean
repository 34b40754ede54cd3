/-
# Lease operational indexes

`clio_relay/queue_lease_indexes.py`: the identity manifest of a lease, its
identity, endpoint, cluster-kind and expiry references and the endpoint guard,
their convergence from a canonical lease, their removal, and the bounded scans
that admission and recovery read.

A scan sorts what it finds; the model keeps the order of the listing, since no
reader depends on it except in which of several mismatches it reports first.
-/

import ClioQueue.Capacity

namespace ClioQueue

open Durable Durable.Prog

/-! ### Identities and paths -/

/-- The identity a lease has with the cluster and kind of its job. -/
def Lease.identity (lease : Lease) (job : RelayJob) : LeaseIndexIdentity where
  leaseId := lease.leaseId
  jobId := lease.jobId
  endpointId := lease.endpointId
  cluster := job.cluster
  jobKind := job.kind
  expiresAt := lease.expiresAt

/-- `_lease_index_identity`. -/
def leaseIndexIdentity (lease : Lease) (job : RelayJob) : Except RelayError LeaseIndexIdentity :=
  if lease.jobId = job.jobId then .ok (lease.identity job)
  else .error (.conflict s!"lease job identity mismatch: {lease.leaseId}/{job.jobId}")

/-- `_validate_lease_index_identity`, the test. -/
def LeaseIndexIdentity.describes (identity : LeaseIndexIdentity) (lease : Lease) : Bool :=
  lease.leaseId == identity.leaseId && lease.jobId == identity.jobId &&
    lease.endpointId == identity.endpointId && lease.expiresAt == identity.expiresAt

/-- `_validate_lease_index_identity`. -/
def validateLeaseIndexIdentity (lease : Lease) (identity : LeaseIndexIdentity) :
    Except RelayError Unit :=
  if identity.describes lease then .ok ()
  else .error (.conflict s!"canonical lease and operational index disagree: {lease.leaseId}")

namespace LeaseIndexIdentity

variable (identity : LeaseIndexIdentity)

/-- `_lease_index_path`. -/
def indexPath : Path := .leaseIndex (leaseIndexToken identity.leaseId)

/-- `_lease_identity_ref_path`. -/
def identityRefPath : Path := .leaseIdentityRef (leaseReference identity)

/-- `_lease_endpoint_ref_path`. -/
def endpointRefPath : Path :=
  .leaseEndpointRef (leaseEndpointToken identity.endpointId) (leaseReference identity)

/-- `_lease_endpoint_guard_path`. -/
def endpointGuardPath : Path :=
  .leaseEndpointGuard (leaseEndpointToken identity.endpointId) (leaseReference identity)

/-- `_lease_cluster_kind_ref_path`. -/
def clusterKindRefPath : Path :=
  .leaseClusterKindRef (leaseClusterToken identity.cluster) identity.jobKind
    (leaseReference identity)

/-- `_lease_expiry_ref_path`. -/
def expiryRefPath : Path := .leaseExpiryRef (leaseIdentityToken identity)

end LeaseIndexIdentity

/-! ### Reading -/

/-- `_read_lease_index_identity_by_token`. -/
def readLeaseIndexIdentityByToken (leaseToken : RefToken)
    (identityToken : Option LeaseIdentityToken) : Op LeaseIndexIdentity := do
  let manifest ← read (.leaseIndex leaseToken)
  match manifest with
  | none => raise (.conflict "lease operational index is missing")
  | some identity => do
    require (identity.cluster != "")
      (.conflict "lease operational index identity mismatch")
    require (leaseIndexToken identity.leaseId == leaseToken)
      (.conflict "lease operational index identity mismatch")
    require (identityToken.all fun token => leaseIdentityToken identity == token)
      (.conflict "lease operational index binding mismatch")
    pure identity

/-- `_read_lease_index_identity`. -/
def readLeaseIndexIdentity (leaseId : DurableRecordId) : Op LeaseIndexIdentity := do
  let identity ← readLeaseIndexIdentityByToken (leaseIndexToken leaseId) none
  require (identity.leaseId == leaseId) (.conflict "lease operational index identity mismatch")
  pure identity

/-- `_require_empty_lease_ref`. -/
def requireEmptyLeaseRef (p : Path) (label : String) : Op Unit := do
  let found ← present p
  require found (.conflict s!"{label} is missing")

/-- `_scan_expiry_refs`: the expiry references, and whether there are more than
`limit`.  The name of a lease that expires before 1970 does not parse. -/
def scanExpiryRefs (limit : Nat) : Op (List LeaseIdentityToken × Bool) := do
  let refs ← listing fun p _ =>
    match p with
    | .leaseExpiryRef token => some token
    | _ => none
  require ((refs.take limit).all fun token => decide (0 ≤ token.expiresKey))
    (.conflict "lease expiry index contains an unsafe reference")
  pure (refs.take limit, decide (limit < refs.length))

/-- `_scan_lease_endpoint_refs`. -/
def scanLeaseEndpointRefs (endpointId : DurableRecordId) (limit : Nat) :
    Op (List (RefToken × LeaseIdentityToken) × Bool) := do
  let references ← listing fun p _ =>
    match p with
    | .leaseEndpointRef endpoint reference =>
      if endpoint = leaseEndpointToken endpointId then some reference else none
    | _ => none
  let guards ← listing fun p _ =>
    match p with
    | .leaseEndpointGuard endpoint reference =>
      if endpoint = leaseEndpointToken endpointId then some reference else none
    | _ => none
  if limit * 2 < references.length + guards.length then pure (references, true)
  else do
    require (references.all guards.contains && guards.all references.contains)
      (.conflict s!"lease endpoint references and guards disagree: {endpointId}")
    pure (references, false)

/-! ### Convergence -/

section

variable [Platform] [Entropy]

/-- `_write_lease_index_identity_unlocked`. -/
def writeLeaseIndexIdentity (identity : LeaseIndexIdentity) : Op Unit := do
  let found ← present identity.indexPath
  if found then do
    let existing ← readLeaseIndexIdentityByToken (leaseIndexToken identity.leaseId) none
    require (existing.leaseId == identity.leaseId)
      (.conflict s!"lease operational index token collision: {identity.leaseId}")
    putWithin (Platform.leaseIndexFits identity) (.leaseIndex (leaseIndexToken identity.leaseId))
      identity
  else
    putWithin (Platform.leaseIndexFits identity) (.leaseIndex (leaseIndexToken identity.leaseId))
      identity

/-- Write the five references of an identity. -/
def writeLeaseRefs (identity : LeaseIndexIdentity) : Op Unit := do
  put (.leaseIdentityRef (leaseReference identity)) ()
  put (.leaseEndpointRef (leaseEndpointToken identity.endpointId) (leaseReference identity)) ()
  put (.leaseEndpointGuard (leaseEndpointToken identity.endpointId) (leaseReference identity)) ()
  put (.leaseClusterKindRef (leaseClusterToken identity.cluster) identity.jobKind
    (leaseReference identity)) ()
  put (.leaseExpiryRef (leaseIdentityToken identity)) ()

/-- Unlink the five references of an identity. -/
def unlinkLeaseRefs (identity : LeaseIndexIdentity) : Op Unit := do
  unlink identity.endpointRefPath
  unlink identity.endpointGuardPath
  unlink identity.clusterKindRefPath
  unlink identity.expiryRefPath
  unlink identity.identityRefPath

/-- `sync_operational_indexes`.  The references of two identities of one lease
share a path exactly when the identities are equal, so the stale references are
all unlinked or all kept. -/
def syncLeaseOperationalIndexes (lease : Lease) (job : RelayJob) (previousLease : Option Lease) :
    Op LeaseIndexIdentity := do
  let identity ← ofExcept (leaseIndexIdentity lease job)
  match previousLease with
  | none => do
    writeLeaseIndexIdentity identity
    writeLeaseRefs identity
    pure identity
  | some previousLease => do
    let previous ← ofExcept (leaseIndexIdentity previousLease job)
    require (previous.leaseId == identity.leaseId && previous.jobId == identity.jobId &&
        previous.endpointId == identity.endpointId)
      (.conflict s!"lease renewal changed immutable identity: {identity.leaseId}")
    (if previous = identity then pure () else unlinkLeaseRefs previous)
    writeLeaseIndexIdentity identity
    writeLeaseRefs identity
    pure identity

/-- `_delete_lease_operational_indexes_unlocked`. -/
def deleteLeaseOperationalIndexes (identity : LeaseIndexIdentity) (allowForeignManifest : Bool) :
    Op Unit := do
  let found ← present identity.indexPath
  if found then do
    let indexed ← readLeaseIndexIdentityByToken (leaseIndexToken identity.leaseId) none
    if indexed = identity then do
      unlinkLeaseRefs identity
      unlink identity.indexPath
    else do
      require allowForeignManifest
        (.conflict s!"lease operational index token is occupied: {identity.leaseId}")
      unlinkLeaseRefs identity
  else unlinkLeaseRefs identity

end

end ClioQueue
