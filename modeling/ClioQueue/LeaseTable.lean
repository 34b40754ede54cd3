/-
# The table of live leases

What the lease files are for: a finite table of live leases, each with the
cluster, kind and specification of its job.  `LeaseTable.file` is the content that the table
gives every lease file: the canonical lease, its copy under the job, the
identity manifest, the references and the endpoint guard.  A queue at rest holds
exactly these files (`Settled`); an interrupted lease operation holds, file by
file, the content of the table before or after it (`Durable.Files.Moving`).

The capacity pair counts the table: `LeaseCapacityPair.Exact`.
-/

import ClioQueue.LeaseIndexes

namespace ClioQueue

variable {e : LiveLease} {p : Path}

open Durable

/-- A live lease, with the cluster, kind and specification of its job. -/
structure LiveLease where
  lease : Lease
  cluster : String
  kind : JobKind
  spec : JobSpec
  deriving DecidableEq

namespace LiveLease

variable (e : LiveLease)

/-- The operational identity. -/
def identity : LeaseIndexIdentity where
  leaseId := e.lease.leaseId
  jobId := e.lease.jobId
  endpointId := e.lease.endpointId
  cluster := e.cluster
  jobKind := e.kind
  expiresAt := e.lease.expiresAt

/-- The capacity scope. -/
def scope : LeaseScope := (leaseClusterDigest e.cluster, e.kind)

/-- What a lease file holds when `e` is the lease it belongs to. -/
def content : (p : Path) → Option (Content p)
  | .lease _ => some e.lease
  | .leaseByJob jobId _ => if jobId = e.lease.jobId then some e.lease else none
  | .leaseIndex _ => some e.identity
  | .leaseIdentityRef r => if r = leaseReference e.identity then some () else none
  | .leaseEndpointRef endpoint r =>
    if endpoint = leaseEndpointToken e.lease.endpointId ∧ r = leaseReference e.identity then
      some ()
    else none
  | .leaseEndpointGuard endpoint r =>
    if endpoint = leaseEndpointToken e.lease.endpointId ∧ r = leaseReference e.identity then
      some ()
    else none
  | .leaseClusterKindRef cluster kind r =>
    if (cluster, kind) = (leaseClusterToken e.cluster, e.kind) ∧ r = leaseReference e.identity then some () else none
  | .leaseExpiryRef token => if token = leaseIdentityToken e.identity then some () else none
  | _ => none

/-- The index files of a live lease. -/
def indexFiles : List Path :=
  [e.identity.indexPath, e.identity.identityRefPath, e.identity.endpointRefPath,
    e.identity.endpointGuardPath, e.identity.clusterKindRefPath, e.identity.expiryRefPath]

/-- The files of a live lease. -/
def files : List Path :=
  .lease e.lease.leaseId :: .leaseByJob e.lease.jobId e.lease.leaseId :: e.indexFiles

end LiveLease

/-! ### Which lease a file belongs to -/

/-- The lease id that a lease token is the digest of. -/
def leaseIdOf (token : RefToken) : Option DurableRecordId :=
  match token.values with
  | ["lease", value] => if h : isDurableRecordId value = true then some ⟨value, h⟩ else none
  | _ => none

@[simp]
theorem leaseIdOf_leaseIndexToken (leaseId : DurableRecordId) :
    leaseIdOf (leaseIndexToken leaseId) = some leaseId := by
  simp [leaseIdOf, leaseIndexToken, stableRefToken, leaseId.valid]

theorem eq_leaseIndexToken_of_leaseIdOf {token : RefToken} {leaseId : DurableRecordId}
    (h : leaseIdOf token = some leaseId) : token = leaseIndexToken leaseId := by
  obtain ⟨_⟩ := token
  unfold leaseIdOf at h
  split at h
  · next value hv =>
      split at h
      · cases h
        simp only at hv
        rw [hv]
        rfl
      · cases h
  · cases h

/-- The lease that a lease file belongs to. -/
def leaseKey : Path → Option DurableRecordId
  | .lease leaseId => some leaseId
  | .leaseByJob _ leaseId => some leaseId
  | .leaseIndex token => leaseIdOf token
  | .leaseIdentityRef r => leaseIdOf r.1
  | .leaseEndpointRef _ r => leaseIdOf r.1
  | .leaseEndpointGuard _ r => leaseIdOf r.1
  | .leaseClusterKindRef _ _ r => leaseIdOf r.1
  | .leaseExpiryRef token => leaseIdOf token.leaseToken
  | _ => none

/-- The canonical leases, their copies under the jobs and the lease indexes. -/
def leaseFile : Path → Prop
  | .lease _ | .leaseByJob .. | .leaseIndex _ | .leaseIdentityRef _ | .leaseEndpointRef ..
  | .leaseEndpointGuard .. | .leaseClusterKindRef .. | .leaseExpiryRef _ => True
  | _ => False

theorem LiveLease.leaseKey_files (hp : p ∈ e.files) : leaseKey p = some e.lease.leaseId := by
  simp only [LiveLease.files, LiveLease.indexFiles, List.mem_cons, List.not_mem_nil, or_false] at hp
  rcases hp with rfl | rfl | rfl | rfl | rfl | rfl | rfl | rfl
  · rfl
  · rfl
  all_goals exact leaseIdOf_leaseIndexToken _

theorem LiveLease.leaseFile_files (hp : p ∈ e.files) : leaseFile p := by
  simp only [LiveLease.files, LiveLease.indexFiles, List.mem_cons, List.not_mem_nil, or_false] at hp
  rcases hp with rfl | rfl | rfl | rfl | rfl | rfl | rfl | rfl <;> trivial

/-- Away from its files a lease leaves nothing. -/
theorem LiveLease.content_eq_none (hkey : leaseKey p = some e.lease.leaseId) (hp : p ∉ e.files) :
    e.content p = none := by
  simp only [LiveLease.files, LiveLease.indexFiles, List.mem_cons, List.not_mem_nil, or_false,
    not_or, LeaseIndexIdentity.indexPath, LeaseIndexIdentity.identityRefPath,
    LeaseIndexIdentity.endpointRefPath, LeaseIndexIdentity.endpointGuardPath,
    LeaseIndexIdentity.clusterKindRefPath, LeaseIndexIdentity.expiryRefPath] at hp
  obtain ⟨h₁, h₂, h₃, h₄, h₅, h₆, h₇, h₈⟩ := hp
  cases p with
  | lease leaseId =>
    obtain rfl : leaseId = e.lease.leaseId := Option.some.inj hkey
    exact absurd rfl h₁
  | leaseByJob jobId leaseId =>
    obtain rfl : leaseId = e.lease.leaseId := Option.some.inj hkey
    refine if_neg ?_
    rintro rfl
    exact h₂ rfl
  | leaseIndex token =>
    have htok := eq_leaseIndexToken_of_leaseIdOf (show leaseIdOf token = _ from hkey)
    exact absurd (by rw [htok]; rfl) h₃
  | leaseIdentityRef =>
    refine if_neg ?_
    rintro rfl
    exact h₄ rfl
  | leaseEndpointRef =>
    refine if_neg ?_
    rintro ⟨rfl, rfl⟩
    exact h₅ rfl
  | leaseEndpointGuard =>
    refine if_neg ?_
    rintro ⟨rfl, rfl⟩
    exact h₆ rfl
  | leaseClusterKindRef =>
    refine if_neg ?_
    rintro ⟨hscope, rfl⟩
    cases hscope
    exact h₇ rfl
  | leaseExpiryRef =>
    refine if_neg ?_
    rintro rfl
    exact h₈ rfl
  | _ => rfl

/-! ### Tables -/

/-- The live leases by lease id. -/
abbrev LeaseTable : Type := Files fun _ : DurableRecordId => LiveLease

namespace LeaseTable

/-- Every live lease stands under its own id. -/
def Named (T : LeaseTable) : Prop := ∀ id e, T.read id = some e → e.lease.leaseId = id

/-- What the table puts into a lease file. -/
def file (T : LeaseTable) (p : Path) : Option (Content p) :=
  (leaseKey p).bind fun id => (T.read id).bind fun e => e.content p

/-- The scopes of the live leases. -/
def scopes (T : LeaseTable) : Multiset LeaseScope := T.bag fun _ e => e.scope

/-- The table with one lease added or replaced. -/
def put (T : LeaseTable) (e : LiveLease) : LeaseTable := Files.write T e.lease.leaseId e

/-- The table without some leases. -/
def remove (T : LeaseTable) (ids : List DurableRecordId) : LeaseTable := Files.unlinkAll T ids

variable {T T' : LeaseTable} {e : LiveLease} {p : Path} {id : DurableRecordId}
  {ids : List DurableRecordId}

theorem read_put_self : (T.put e).read e.lease.leaseId = some e := Files.read_write_self ..

theorem read_put_ne (h : id ≠ e.lease.leaseId) : (T.put e).read id = T.read id := by
  rw [put, Files.read_write_ne _ h]

theorem read_remove : (T.remove ids).read id = if id ∈ ids then none else T.read id :=
  Files.read_unlinkAll ids T id

theorem read_remove_some (h : (T.remove ids).read id = some e) : id ∉ ids ∧ T.read id = some e := by
  rw [read_remove] at h
  split_ifs at h with hid
  exact ⟨hid, h⟩

theorem Named.put (hT : T.Named) (e : LiveLease) : (T.put e).Named := by
  intro id e' he'
  by_cases hid : id = e.lease.leaseId
  · subst hid
    rw [read_put_self] at he'
    cases he'
    rfl
  · rw [read_put_ne hid] at he'
    exact hT id e' he'

theorem Named.remove (hT : T.Named) (ids : List DurableRecordId) : (T.remove ids).Named :=
  fun id e he => hT id e (read_remove_some he).2

/-! ### Files -/

theorem file_of_key (hkey : leaseKey p = some id) :
    T.file p = (T.read id).bind fun e => e.content p := by
  simp [file, hkey]

theorem file_congr (h : ∀ id, leaseKey p = some id → T.read id = T'.read id) :
    T.file p = T'.file p := by
  unfold file
  rcases hk : leaseKey p with _ | id
  · rfl
  · rw [Option.bind_some, Option.bind_some, h id hk]

theorem file_put_self (hkey : leaseKey p = some e.lease.leaseId) :
    (T.put e).file p = e.content p := by
  rw [file_of_key hkey, read_put_self, Option.bind_some]

theorem file_put_files (hp : p ∈ e.files) : (T.put e).file p = e.content p :=
  file_put_self (LiveLease.leaseKey_files hp)

theorem file_put_other (hkey : leaseKey p ≠ some e.lease.leaseId) : (T.put e).file p = T.file p :=
  file_congr fun id h => read_put_ne (by rintro rfl; exact hkey h)

theorem file_remove_self (hkey : leaseKey p = some id) (hid : id ∈ ids) :
    (T.remove ids).file p = none := by
  rw [file_of_key hkey, read_remove, if_pos hid, Option.bind_none]

theorem file_lease_remove (hid : id ∈ ids) : (T.remove ids).file (.lease id) = none :=
  file_remove_self rfl hid

theorem file_remove_files (hid : e.lease.leaseId ∈ ids) (hp : p ∈ e.files) :
    (T.remove ids).file p = none :=
  file_remove_self (LiveLease.leaseKey_files hp) hid

theorem file_live (hT : T.Named) (he : T.read id = some e) (hp : p ∈ e.files) :
    T.file p = e.content p := by
  have hkey : leaseKey p = some id := by rw [LiveLease.leaseKey_files hp, hT id e he]
  rw [file_of_key hkey, he, Option.bind_some]

/-- Removing leases changes their files only. -/
theorem file_remove_eq (hT : T.Named) (hnot : ∀ id e, id ∈ ids → T.read id = some e → p ∉ e.files) :
    T.file p = (T.remove ids).file p := by
  rcases hk : leaseKey p with _ | id
  · exact file_congr fun id h => by rw [hk] at h; cases h
  · by_cases hid : id ∈ ids
    · rw [file_remove_self hk hid]
      rcases hr : T.read id with _ | e
      · rw [file_of_key hk, hr, Option.bind_none]
      · rw [file_of_key hk, hr, Option.bind_some]
        exact LiveLease.content_eq_none (by rw [hk, hT id e hr]) (hnot id e hid hr)
    · refine file_congr fun id' h => ?_
      obtain rfl : id = id' := Option.some.inj (hk.symm.trans h)
      rw [read_remove, if_neg hid]

/-- A new lease changes its own files only. -/
theorem file_put_eq (hnew : T.read e.lease.leaseId = none) (hp : p ∉ e.files) :
    T.file p = (T.put e).file p := by
  by_cases hk : leaseKey p = some e.lease.leaseId
  · rw [file_put_self hk, file_of_key hk, hnew, Option.bind_none, LiveLease.content_eq_none hk hp]
  · rw [file_put_other hk]

/-- A replaced lease changes its old and its new files only. -/
theorem file_replace_eq {old : LiveLease} (hT : T.Named) (hold : T.read e.lease.leaseId = some old)
    (hp : p ∉ e.files) (hp' : p ∉ old.files) : T.file p = (T.put e).file p := by
  by_cases hk : leaseKey p = some e.lease.leaseId
  · rw [file_put_self hk, file_of_key hk, hold, Option.bind_some, LiveLease.content_eq_none hk hp,
      LiveLease.content_eq_none (by rw [hk, hT _ _ hold]) hp']
  · rw [file_put_other hk]

@[simp]
theorem file_lease : T.file (.lease id) = (T.read id).map LiveLease.lease := by
  rw [file_of_key rfl]
  rcases T.read id with _ | e <;> rfl

/-- A file that the table fills belongs to a live lease. -/
theorem exists_of_file (hT : T.Named) {c : Content p} (h : T.file p = some c) :
    ∃ id e, T.read id = some e ∧ p ∈ e.files := by
  unfold file at h
  obtain ⟨id, hid, h⟩ := Option.bind_eq_some_iff.1 h
  obtain ⟨e, he, h⟩ := Option.bind_eq_some_iff.1 h
  refine ⟨id, e, he, ?_⟩
  by_contra hp
  rw [LiveLease.content_eq_none (by rw [hid, hT id e he]) hp] at h
  cases h

/-! ### Scopes -/

theorem scopes_put (h : T.read e.lease.leaseId = none) : (T.put e).scopes = e.scope ::ₘ T.scopes := by
  rw [scopes, put, Files.bag_write, Files.unlink_of_missing h]
  rfl

theorem scopes_remove {scope : LeaseScope} (hids : ids.Nodup)
    (h : ∀ id ∈ ids, ∃ e, T.read id = some e ∧ e.scope = scope) :
    T.scopes = Multiset.replicate ids.length scope + (T.remove ids).scopes :=
  Files.bag_unlinkAll ids T hids h

theorem scopes_replace {old : LiveLease} (h : T.read e.lease.leaseId = some old)
    (hscope : e.scope = old.scope) : (T.put e).scopes = T.scopes := by
  have hbag : T.scopes = old.scope ::ₘ scopes (T.unlink e.lease.leaseId) := Files.bag_unlink h
  rw [hbag, scopes, put, Files.bag_write, hscope]
  rfl

end LeaseTable

/-! ### The capacity pair of a table -/

/-- A pair that the codecs take: its records are bound to each other, and the total is that of
the counts. -/
structure LeaseCapacityPair.Valid (pair : LeaseCapacityPair) : Prop where
  bound : pair.bound = true
  total : pair.aggregate.globalLiveLeases = Multiset.card pair.aggregate.clusterKindCounts
  small : Multiset.card pair.aggregate.clusterKindCounts ≤ maxLiveLeaseRecords

/-- The pair is valid and counts exactly the live leases of the table. -/
structure LeaseCapacityPair.Exact (pair : LeaseCapacityPair) (T : LeaseTable) : Prop where
  bound : pair.bound = true
  counts : pair.aggregate.clusterKindCounts = T.scopes
  total : pair.aggregate.globalLiveLeases = Multiset.card T.scopes
  small : Multiset.card T.scopes ≤ maxLiveLeaseRecords

namespace LeaseCapacityPair

variable {pair : LeaseCapacityPair} {T : LeaseTable}

theorem Exact.valid (h : pair.Exact T) : pair.Valid :=
  ⟨h.bound, by rw [h.counts, h.total], by rw [h.counts]; exact h.small⟩

theorem Exact.normalize_ok {counts : Multiset LeaseScope}
    (h : Multiset.card counts ≤ maxLiveLeaseRecords) :
    normalizeLeaseCapacityCounts counts = .ok counts := by
  have hdedup : Multiset.card counts.dedup ≤ Multiset.card counts :=
    Multiset.card_le_card (Multiset.dedup_le counts)
  have hscopes : ¬ maxLeaseCapacityScopes < Multiset.card counts.dedup :=
    Nat.not_lt.2 (hdedup.trans h)
  rw [normalizeLeaseCapacityCounts, if_neg hscopes, if_neg (Nat.not_lt.2 h)]

theorem Valid.aggregate_ok (h : pair.Valid) (label : String) :
    leaseCapacityAggregateFromDocument pair.aggregate label = .ok pair.aggregate := by
  have hsmall : ¬ maxLiveLeaseRecords < pair.aggregate.globalLiveLeases := by
    rw [h.total]
    exact Nat.not_lt.2 h.small
  simp only [leaseCapacityAggregateFromDocument, if_neg hsmall, Exact.normalize_ok h.small,
    if_neg (not_not.2 h.total.symm)]

theorem Valid.payload_ok (h : pair.Valid) (label : String) :
    leaseCapacityPairFromPayload pair label = .ok pair := by
  simp [leaseCapacityPairFromPayload, h.aggregate_ok, validateLeaseCapacityPair, h.bound, bind,
    Except.bind, pure, Except.pure]

end LeaseCapacityPair

/-- The store holds a capacity pair. -/
def HoldsPair (pair : LeaseCapacityPair) (s : Store) : Prop :=
  s.read .capacityAggregate = some pair.aggregate ∧
    s.read .capacityCheckpoint = some pair.checkpoint

/-- Each capacity record is that of one of the pairs: a pair that is being replaced. -/
structure HoldsAmong (pairs : List LeaseCapacityPair) (s : Store) : Prop where
  aggregate : ∃ pair ∈ pairs, s.read .capacityAggregate = some pair.aggregate
  checkpoint : ∃ pair ∈ pairs, s.read .capacityCheckpoint = some pair.checkpoint

/-- A pair that was torn before: one of the records may be missing. -/
structure TornAmong (pairs : List LeaseCapacityPair) (s : Store) : Prop where
  aggregate : ∀ a, s.read .capacityAggregate = some a → ∃ pair ∈ pairs, a = pair.aggregate
  checkpoint : ∀ c, s.read .capacityCheckpoint = some c → ∃ pair ∈ pairs, c = pair.checkpoint
  found : (s.read .capacityAggregate).isSome ∨ (s.read .capacityCheckpoint).isSome

end ClioQueue
