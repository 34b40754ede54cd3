/-
# What admission and recovery read

The scans of the lease indexes in a queue at rest.  The expiry references are
exactly the tokens of the live leases (`Snapshot`), every reference leads to its
lease, and no check on the way fails.
-/

import ClioQueue.LeaseAdmission
import ClioQueue.LeaseOperations
import ClioQueue.QuietWrites

namespace ClioQueue

open Durable Durable.Prog Durable.Files

/-- The expiry references. -/
def expiryRefsListed (p : Path) (_ : Content p) : Option LeaseIdentityToken :=
  match p with
  | .leaseExpiryRef token => some token
  | _ => none

/-- A complete listing of the expiry references of a table. -/
structure Snapshot (T : LeaseTable) (refs : List LeaseIdentityToken) : Prop where
  nodup : refs.Nodup
  mem : ∀ token, token ∈ refs ↔ ∃ id e, T.read id = some e ∧ token = leaseIdentityToken e.identity

section

variable {T : LeaseTable} {s : Store} {v : Supply} {e : LiveLease} {id : DurableRecordId}
  {C : Store → Prop} {E : Post RelayError}

/-! ### Files of live leases -/

/-- The files of a live lease are there. -/
theorem AtRest.read_file (hrest : AtRest T s) (hT : T.Named) (he : T.read id = some e) {p : Path}
    (hp : p ∈ e.files) : s.read p = e.content p := by
  rw [hrest.files p (LiveLease.leaseFile_files hp), LeaseTable.file_live hT he hp]

theorem LeaseTable.Named.unique {e' : LiveLease} {id' : DurableRecordId} (hT : T.Named)
    (he : T.read id = some e) (he' : T.read id' = some e')
    (h : leaseIndexToken e'.lease.leaseId = leaseIndexToken e.lease.leaseId) : e' = e := by
  have hid : id' = id := by rw [← hT id' e' he', ← hT id e he, leaseIndexToken_inj.1 h]
  rw [hid, he] at he'
  exact (Option.some.inj he').symm

theorem wp_requireEmptyLeaseRef {Q : Post Unit} {p : Path} {label : String}
    (hp : (s.read p).isSome = true) (hQ : Q () s v) :
    wp (requireEmptyLeaseRef p label) C Q E s v := by
  simp [requireEmptyLeaseRef, hp, hQ]

section

variable (hrest : AtRest T s) (hT : T.Named) (he : T.read id = some e)

include hrest hT he

/-- Every reference of a live lease is there. -/
theorem AtRest.ref_isSome {p : Path} (hp : p ∈ e.refFiles) : (s.read p).isSome = true := by
  rw [hrest.read_file hT he (.tail _ (.tail _ (.tail _ hp)))]
  simp only [LiveLease.refFiles, List.mem_cons, List.not_mem_nil, or_false] at hp
  rcases hp with rfl | rfl | rfl | rfl | rfl <;>
    simp [LiveLease.content, LeaseIndexIdentity.identityRefPath,
      LeaseIndexIdentity.endpointRefPath, LeaseIndexIdentity.endpointGuardPath,
      LeaseIndexIdentity.clusterKindRefPath, LeaseIndexIdentity.expiryRefPath, LiveLease.identity]

/-- The manifest of a live lease, read through one of its tokens. -/
theorem AtRest.wp_readByToken {Q : Post LeaseIndexIdentity} (hcl : e.cluster ≠ "")
    (hQ : Q e.identity s v) :
    wp (readLeaseIndexIdentityByToken (leaseIdentityToken e.identity).leaseToken
      (some (leaseIdentityToken e.identity))) C Q E s v := by
  have hname := hT id e he
  have hman := hrest.manifest hT (by rw [hname]; exact he)
  exact wp_readLeaseIndexIdentityByToken hman hcl rfl (by simp) hQ

theorem AtRest.wp_readLease_live {Q : Post (Option Lease)} (hQ : Q (some e.lease) s v) :
    wp (readLease e.identity.leaseId) C Q E s v := by
  refine wp_readLease hrest hT ?_
  have hname : e.identity.leaseId = id := hT id e he
  rw [hname, he]
  exact hQ

end

/-! ### Expiry references -/

theorem LiveLease.files_eq (e : LiveLease) : e.files =
    [.lease e.lease.leaseId, .leaseByJob e.lease.jobId e.lease.leaseId,
      .leaseIndex (leaseIndexToken e.lease.leaseId), .leaseIdentityRef (leaseReference e.identity),
      .leaseEndpointRef (leaseEndpointToken e.lease.endpointId) (leaseReference e.identity),
      .leaseEndpointGuard (leaseEndpointToken e.lease.endpointId) (leaseReference e.identity),
      .leaseClusterKindRef (leaseClusterToken e.cluster) e.kind (leaseReference e.identity),
      .leaseExpiryRef (leaseIdentityToken e.identity)] := rfl

/-- The expiry references are the tokens of the live leases. -/
theorem AtRest.mem_expiryRefs (hrest : AtRest T s) (hT : T.Named) (token : LeaseIdentityToken) :
    token ∈ s.collect expiryRefsListed ↔
      ∃ id e, T.read id = some e ∧ token = leaseIdentityToken e.identity := by
  rw [mem_collect]
  constructor
  · rintro ⟨p, c, hread, hf⟩
    unfold expiryRefsListed at hf
    split at hf
    · next token' =>
        cases hf
        rw [hrest.files (.leaseExpiryRef token) trivial] at hread
        obtain ⟨id, e, he, hp⟩ := LeaseTable.exists_of_file hT hread
        refine ⟨id, e, he, ?_⟩
        simpa [LiveLease.files_eq] using hp
    · cases hf
  · rintro ⟨id, e, he, rfl⟩
    have hp : e.identity.expiryRefPath ∈ e.refFiles := by simp [LiveLease.refFiles]
    obtain ⟨c, hc⟩ := Option.isSome_iff_exists.1 (hrest.ref_isSome hT he hp)
    exact ⟨e.identity.expiryRefPath, c, hc, rfl⟩

theorem AtRest.snapshot (hrest : AtRest T s) (hT : T.Named) :
    Snapshot T (s.collect expiryRefsListed) := by
  refine ⟨nodup_collect fun p c q d x _ _ hx hy => ?_, hrest.mem_expiryRefs hT⟩
  unfold expiryRefsListed at hx hy
  split at hx
  · cases hx
    split at hy
    · cases hy
      rfl
    · cases hy
  · cases hx

/-- There are at most as many different things that live leases show as live leases. -/
theorem LeaseTable.length_le {α : Type} {xs : List α} (f : LiveLease → α) (h : xs.Nodup)
    (hmem : ∀ x ∈ xs, ∃ id e, T.read id = some e ∧ x = f e) : xs.length ≤ Multiset.card T.scopes := by
  have hsub : xs ⊆ T.collect fun _ e => some (f e) := by
    intro x hx
    obtain ⟨id, e, he, rfl⟩ := hmem x hx
    exact Files.mem_collect.2 ⟨id, e, he, rfl⟩
  have hlen := (List.subperm_of_subset h hsub).length_le
  have hcard : Multiset.card T.scopes = (T.collect fun _ e => some (f e)).length := by
    simp [LeaseTable.scopes, Files.bag, Files.collect]
  rwa [hcard]

/-- The leases that expire before 1970 have references that do not parse. -/
def LeaseTable.Parses (T : LeaseTable) : Prop :=
  ∀ id e, T.read id = some e → 0 ≤ leaseExpiryKey e.lease.expiresAt

/-- **The snapshot of the expiry references.** -/
theorem AtRest.wp_expirySnapshot {Q : Post (List LeaseIdentityToken)}
    {overflow : String} (hrest : AtRest T s) (hT : T.Named)
    (hQ : ∀ refs, Snapshot T refs → Q refs s v) (hE : ¬ T.Parses → ∀ err, E err s v) :
    wp (expirySnapshot overflow) C Q E s v := by
  have hsnap := hrest.snapshot hT
  obtain ⟨pair, -, hexact⟩ := hrest.pair
  have hlen : (s.collect expiryRefsListed).length ≤ maxLiveLeaseRecords :=
    (LeaseTable.length_le _ hsnap.nodup fun x => (hsnap.mem x).1).trans hexact.small
  have htake : (s.collect expiryRefsListed).take maxLiveLeaseRecords =
      s.collect expiryRefsListed := List.take_of_length_le hlen
  show wp (((listing expiryRefsListed >>= fun refs =>
    require ((refs.take maxLiveLeaseRecords).all fun token => decide (0 ≤ token.expiresKey))
      (.conflict "lease expiry index contains an unsafe reference") >>= fun _ =>
        pure (refs.take maxLiveLeaseRecords, decide (maxLiveLeaseRecords < refs.length))) >>=
    fun scan => require (!scan.2) (.conflict overflow) >>= fun _ => pure scan.1)) C Q E s v
  simp only [wp_bind, wp_listing, wp_require, wp_pure, htake]
  refine ⟨fun _ => ⟨fun _ => hQ _ hsnap, fun hfull => ?_⟩, fun hunsafe => hE (fun hT' => ?_) _⟩
  · simp only [Bool.not_eq_false', decide_eq_true_eq] at hfull
    omega
  · rw [List.all_eq_false] at hunsafe
    obtain ⟨token, htok, hbad⟩ := hunsafe
    obtain ⟨id, e, he, rfl⟩ := (hsnap.mem token).1 htok
    exact hbad (decide_eq_true (hT' id e he))

/-! ### Due leases -/

variable {cluster : String} {now : Time}

/-- A live lease of a cluster that has expired. -/
structure DueLease (T : LeaseTable) (cluster : String) (now : Time) (lease : Lease) : Prop where
  live : ∃ e, T.read lease.leaseId = some e ∧ e.lease = lease ∧ e.cluster = cluster
  expired : lease.isExpired now = true

/-- **One reference of the sweep.** -/
theorem AtRest.wp_dueLeases {Q : Post (List Lease)} (hrest : AtRest T s)
    (hT : T.Named) (he : T.read id = some e) (hcl : e.cluster ≠ "")
    (hQ : Q (if e.cluster = cluster ∧ e.lease.isExpired now then [e.lease] else []) s v) :
    wp (dueLeases cluster now (leaseIdentityToken e.identity)) C Q E s v := by
  have hskip : ((leaseIdentityToken e.identity).clusterToken ≠ leaseClusterToken cluster ∨
      leaseExpiryKey now < (leaseIdentityToken e.identity).expiresKey) ↔
      ¬ (e.cluster = cluster ∧ e.lease.isExpired now = true) := by
    have htok : (leaseIdentityToken e.identity).clusterToken = leaseClusterToken cluster ↔
        e.cluster = cluster := leaseClusterToken_inj
    have hkey : leaseExpiryKey now < (leaseIdentityToken e.identity).expiresKey ↔
        ¬ e.lease.isExpired now = true := by
      simp [leaseIdentityToken, leaseExpiryKey, LiveLease.identity, Lease.isExpired]
    rw [hkey, ne_eq, htok]
    tauto
  unfold dueLeases
  rw [wp_ite]
  constructor
  · intro h
    rw [if_neg (hskip.1 h)] at hQ
    exact (wp_pure _).2 hQ
  · intro h
    have hdue := not_not.1 (fun h' => h (hskip.2 h'))
    rw [if_pos hdue] at hQ
    have hrefs : ∀ p ∈ e.refFiles, (s.read p).isSome = true := fun p hp =>
      hrest.ref_isSome hT he hp
    simp only [dueExpiredLease, wp_bind]
    refine hrest.wp_readByToken hT he hcl (hrest.wp_readLease_live hT he ?_)
    simp only [wp_bind, validateLeaseIndexIdentity_live]
    rw [wp_ofExcept]
    refine ⟨fun _ _ => ?_, by rintro _ ⟨⟩⟩
    rw [wp_require]
    have hsame : (e.identity.cluster == cluster &&
        e.identity.jobKind == (leaseIdentityToken e.identity).kind &&
        leaseEndpointToken e.identity.endpointId == (leaseIdentityToken e.identity).endpointToken &&
        leaseJobToken e.identity.jobId == (leaseIdentityToken e.identity).jobToken &&
        leaseExpiryKey e.identity.expiresAt == (leaseIdentityToken e.identity).expiresKey) =
          true := by
      simp [leaseIdentityToken, LiveLease.identity, hdue.1]
    rw [hsame]
    refine ⟨fun _ => ?_, by rintro ⟨⟩⟩
    refine wp_requireEmptyLeaseRef (hrefs _ (by simp [LiveLease.refFiles])) ?_
    refine wp_requireEmptyLeaseRef (hrefs _ (by simp [LiveLease.refFiles])) ?_
    refine wp_requireEmptyLeaseRef (hrefs _ (by simp [LiveLease.refFiles])) ?_
    refine wp_requireEmptyLeaseRef (hrefs _ (by simp [LiveLease.refFiles])) ?_
    simp only [wp_pure, hdue.2, if_true, Option.toList_some]
    exact hQ

section

variable (hrest : AtRest T s) (hT : T.Named) (hcls : ∀ id e, T.read id = some e → e.cluster ≠ "")

include hrest hT hcls

/-- The leases that a list of references leads to. -/
theorem AtRest.wp_gatherDueLeases {Q : Post (List Lease)}
    {refs : List LeaseIdentityToken} (hrefs : Snapshot T refs)
    (hQ : ∀ due, (∀ lease ∈ due, DueLease T cluster now lease) →
      (due.map Lease.leaseId).Nodup → Q due s v) :
    wp (gather (dueLeases cluster now) refs) C Q E s v := by
  have hloop := wp_gather (C := C) (E := E)
    (fun rest due t w => t = s ∧ w = v ∧ rest.Nodup ∧ (∀ token ∈ rest, token ∈ refs) ∧
      (∀ lease ∈ due, DueLease T cluster now lease) ∧ (due.map Lease.leaseId).Nodup ∧
      ∀ token ∈ rest, ∀ lease ∈ due, token.leaseToken ≠ leaseIndexToken lease.leaseId)
    (dueLeases cluster now) (fun token rest due t w hJ => ?_) refs [] s v
    ⟨rfl, rfl, hrefs.nodup, fun _ h => h, by simp, by simp, by simp⟩
  · exact wp_imp hloop
      fun due t w ⟨ht, hw, _, _, hdue, hnd, _⟩ => by subst ht hw; exact hQ due hdue hnd
  · obtain ⟨rfl, rfl, hnd, hsub, hdue, hids, hnew⟩ := hJ
    obtain ⟨id, e, he, rfl⟩ := (hrefs.mem token).1 (hsub token (.head _))
    have hlater : ∀ token ∈ rest, token.leaseToken ≠ leaseIndexToken e.lease.leaseId := by
      intro token htok heq
      obtain ⟨_, _, he', rfl⟩ := (hrefs.mem token).1 (hsub token (.tail _ htok))
      exact (List.nodup_cons.1 hnd).1 (hT.unique he he' heq ▸ htok)
    refine hrest.wp_dueLeases hT he (hcls id e he) ⟨rfl, rfl, (List.nodup_cons.1 hnd).2,
      fun token htok => hsub token (.tail _ htok), ?_⟩
    split
    · next h =>
        have hname := hT id e he
        refine ⟨fun lease hlease => ?_, ?_, fun token htok lease hlease => ?_⟩
        · rcases List.mem_append.1 hlease with hlease | hlease
          · exact hdue lease hlease
          · rw [List.mem_singleton.1 hlease]
            exact ⟨⟨e, by rw [hname]; exact he, rfl, h.1⟩, h.2⟩
        · rw [List.map_append, List.nodup_append]
          refine ⟨hids, by simp, fun a ha b hb hab => ?_⟩
          obtain ⟨lease, hlease, rfl⟩ := List.mem_map.1 ha
          rw [List.map_singleton, List.mem_singleton] at hb
          refine hnew _ (.head _) lease hlease ?_
          rw [hab, hb]
          rfl
        · rcases List.mem_append.1 hlease with hlease | hlease
          · exact hnew token (.tail _ htok) lease hlease
          · rw [List.mem_singleton.1 hlease]
            exact hlater token htok
    · rw [List.append_nil]
      exact ⟨hdue, hids, fun token htok => hnew token (.tail _ htok)⟩

/-- **The due leases.** -/
theorem AtRest.wp_dueExpiredLeases {Q : Post (List Lease)}
    {refs : List LeaseIdentityToken} (hrefs : Snapshot T refs)
    (hQ : ∀ due, (∀ lease ∈ due, DueLease T cluster now lease) →
      (due.map Lease.leaseId).Nodup → Q due s v) :
    wp (dueExpiredLeases cluster now refs) C Q E s v := by
  unfold dueExpiredLeases
  rw [wp_bind]
  refine hrest.wp_gatherDueLeases hT hcls hrefs fun due hdue hnd => ?_
  have hperm := List.perm_insertionSort Lease.dueBefore due
  refine (wp_pure _).2 (hQ _ (fun lease hlease => hdue lease (hperm.mem_iff.1 hlease)) ?_)
  exact ((hperm.map Lease.leaseId).nodup_iff).2 hnd

end

/-! ### Leases of an endpoint -/

variable {endpointId : DurableRecordId}

/-- The references of an endpoint. -/
def endpointRefsListed (endpointId : DurableRecordId) (p : Path) (_ : Content p) :
    Option (RefToken × LeaseIdentityToken) :=
  match p with
  | .leaseEndpointRef endpoint reference =>
    if endpoint = leaseEndpointToken endpointId then some reference else none
  | _ => none

/-- The guards of an endpoint. -/
def endpointGuardsListed (endpointId : DurableRecordId) (p : Path) (_ : Content p) :
    Option (RefToken × LeaseIdentityToken) :=
  match p with
  | .leaseEndpointGuard endpoint reference =>
    if endpoint = leaseEndpointToken endpointId then some reference else none
  | _ => none

/-- A complete listing of the references of an endpoint. -/
structure EndpointRefs (T : LeaseTable) (endpointId : DurableRecordId)
    (refs : List (RefToken × LeaseIdentityToken)) : Prop where
  nodup : refs.Nodup
  mem : ∀ r, r ∈ refs ↔
    ∃ id e, T.read id = some e ∧ e.lease.endpointId = endpointId ∧ r = leaseReference e.identity

/-- A listing of files of which every live lease of the endpoint has one. -/
theorem AtRest.endpointFiles (hrest : AtRest T s) (hT : T.Named)
    {f : (p : Path) → Content p → Option (RefToken × LeaseIdentityToken)}
    (place : RefToken → RefToken × LeaseIdentityToken → Path)
    (hf : ∀ p c r, f p c = some r ↔ p = place (leaseEndpointToken endpointId) r)
    (hlease : ∀ endpoint r, leaseFile (place endpoint r))
    (hplace : ∀ e : LiveLease,
      place (leaseEndpointToken e.lease.endpointId) (leaseReference e.identity) ∈ e.refFiles)
    (hfiles : ∀ (e : LiveLease) endpoint r, place endpoint r ∈ e.files →
      endpoint = leaseEndpointToken e.lease.endpointId ∧ r = leaseReference e.identity) :
    EndpointRefs T endpointId (s.collect f) := by
  refine ⟨nodup_collect fun p c q d x _ _ hx hy => ?_, fun r => ?_⟩
  · rw [(hf p c x).1 hx, (hf q d x).1 hy]
  · rw [mem_collect]
    constructor
    · rintro ⟨p, c, hread, hr⟩
      obtain rfl := (hf p c r).1 hr
      rw [hrest.files _ (hlease _ r)] at hread
      obtain ⟨id, e, he, hp⟩ := LeaseTable.exists_of_file hT hread
      obtain ⟨hendp, hr⟩ := hfiles e _ r hp
      exact ⟨id, e, he, (leaseEndpointToken_inj.1 hendp).symm, hr⟩
    · rintro ⟨id, e, he, rfl, rfl⟩
      obtain ⟨c, hc⟩ := Option.isSome_iff_exists.1 (hrest.ref_isSome hT he (hplace e))
      exact ⟨_, c, hc, (hf _ c _).2 rfl⟩

theorem AtRest.endpointRefs (hrest : AtRest T s) (hT : T.Named) :
    EndpointRefs T endpointId (s.collect (endpointRefsListed endpointId)) := by
  refine hrest.endpointFiles hT .leaseEndpointRef (fun p c r => ?_) (fun _ _ => trivial)
    (fun e => .tail _ (.head _)) fun e endpoint r hp => ?_
  · unfold endpointRefsListed
    split
    · next endpoint reference =>
        rw [Option.ite_none_right_eq_some, Option.some.injEq, Path.leaseEndpointRef.injEq]
    · next hne =>
        refine ⟨nofun, fun hp => ?_⟩
        subst hp
        exact absurd HEq.rfl (hne _ _ c rfl)
  · simpa [LiveLease.files_eq] using hp

/-- At rest the guards of an endpoint refer to exactly its leases. -/
theorem AtRest.endpointGuards (hrest : AtRest T s) (hT : T.Named) :
    EndpointRefs T endpointId (s.collect (endpointGuardsListed endpointId)) := by
  refine hrest.endpointFiles hT .leaseEndpointGuard (fun p c r => ?_) (fun _ _ => trivial)
    (fun e => .tail _ (.tail _ (.head _)))
    fun e endpoint r hp => ?_
  · unfold endpointGuardsListed
    split
    · next endpoint reference =>
        rw [Option.ite_none_right_eq_some, Option.some.injEq, Path.leaseEndpointGuard.injEq]
    · next hne =>
        refine ⟨nofun, fun hp => ?_⟩
        subst hp
        exact absurd HEq.rfl (hne _ _ c rfl)
  · simpa [LiveLease.files_eq] using hp

/-- There are at most as many references as live leases. -/
theorem EndpointRefs.length_le {refs : List (RefToken × LeaseIdentityToken)}
    (h : EndpointRefs T endpointId refs) : refs.length ≤ Multiset.card T.scopes := by
  refine LeaseTable.length_le (fun e => leaseReference e.identity) h.nodup fun r hr => ?_
  obtain ⟨id, e, he, -, hr⟩ := (h.mem r).1 hr
  exact ⟨id, e, he, hr⟩

/-- **The scan of an endpoint.** -/
theorem AtRest.wp_scanLeaseEndpointRefs {Q : Post (List (RefToken × LeaseIdentityToken) × Bool)}
    (hrest : AtRest T s) (hT : T.Named)
    (hQ : ∀ refs, EndpointRefs T endpointId refs → Q (refs, false) s v) :
    wp (scanLeaseEndpointRefs endpointId maxLiveLeaseRecords) C Q E s v := by
  have hrefs := (hrest.endpointRefs hT : EndpointRefs T endpointId _)
  have hguards := (hrest.endpointGuards hT : EndpointRefs T endpointId _)
  obtain ⟨pair, -, hexact⟩ := hrest.pair
  have hsmall := hexact.small
  have h₁ := hrefs.length_le
  have h₂ := hguards.length_le
  show wp (listing (endpointRefsListed endpointId) >>= fun references =>
    listing (endpointGuardsListed endpointId) >>= fun guards =>
      if maxLiveLeaseRecords * 2 < references.length + guards.length then pure (references, true)
      else require (references.all guards.contains && guards.all references.contains)
        (.conflict s!"lease endpoint references and guards disagree: {endpointId}") >>= fun _ =>
          pure (references, false)) C Q E s v
  have hsame : ((s.collect (endpointRefsListed endpointId)).all
      (s.collect (endpointGuardsListed endpointId)).contains &&
      (s.collect (endpointGuardsListed endpointId)).all
        (s.collect (endpointRefsListed endpointId)).contains) = true := by
    simp only [Bool.and_eq_true, List.all_eq_true, List.contains_iff_mem]
    exact ⟨fun r hr => (hguards.mem r).2 ((hrefs.mem r).1 hr),
      fun r hr => (hrefs.mem r).2 ((hguards.mem r).1 hr)⟩
  have hnot : ¬ maxLiveLeaseRecords * 2 < (s.collect (endpointRefsListed endpointId)).length +
      (s.collect (endpointGuardsListed endpointId)).length := by omega
  simp only [wp_bind, wp_listing, if_neg hnot, wp_require, hsame, wp_pure]
  exact ⟨fun _ => hQ _ hrefs, by rintro ⟨⟩⟩

/-! ### The live lease of an endpoint -/

variable [Entropy] {Q : Post (List LeaseIdentityToken)} {admissionClass : McpAdmissionClass}
  {reusable : Option (List LeaseIdentityToken)} {job : RelayJob}

/-- Every lease of the endpoint was expired at a clock reading. -/
def LeaseTable.Idle (T : LeaseTable) (endpointId : DurableRecordId) : Prop :=
  ∀ id e, T.read id = some e → e.lease.endpointId = endpointId →
    ∃ n, e.lease.isExpired (Entropy.clock n) = true

/-- Two leases of the endpoint were live at clock readings. -/
def LeaseTable.Crowded (T : LeaseTable) (endpointId : DurableRecordId) : Prop :=
  ∃ id id' e e', id ≠ id' ∧ T.read id = some e ∧ T.read id' = some e' ∧
    e.lease.endpointId = endpointId ∧ e'.lease.endpointId = endpointId ∧
    (∃ n, e.lease.isExpired (Entropy.clock n) = false) ∧
    ∃ n, e'.lease.isExpired (Entropy.clock n) = false

omit [Entropy] in
theorem wp_currentExpiryRefs (hrest : AtRest T s) (hT : T.Named)
    (hreuse : ∀ refs, reusable = some refs → Snapshot T refs)
    (hQ : ∀ refs, Snapshot T refs → Q refs s v) (hE : ¬ T.Parses → ∀ err, E err s v) :
    wp (currentExpiryRefs reusable) C Q E s v := by
  rcases reusable with _ | refs
  · exact hrest.wp_expirySnapshot hT hQ hE
  · exact (wp_pure _).2 (hQ refs (hreuse refs rfl))

theorem AtRest.wp_activeLease {Q : Post (List Lease)} (hrest : AtRest T s)
    (hT : T.Named) (he : T.read id = some e) (hcl : e.cluster ≠ "")
    (hendp : e.lease.endpointId = endpointId)
    (hQ : Q (if e.lease.isExpired (Entropy.clock v.ticks) then [] else [e.lease]) s
      { v with ticks := v.ticks + 1 }) :
    wp (activeLease endpointId (leaseReference e.identity)) C Q E s v := by
  have hrefs : ∀ p ∈ e.refFiles, (s.read p).isSome = true := fun p hp =>
    hrest.ref_isSome hT he hp
  have hsame : (e.identity.endpointId == endpointId) = true := beq_iff_eq.2 hendp
  unfold activeLease
  simp only [wp_bind]
  refine hrest.wp_readByToken hT he hcl (hrest.wp_readLease_live hT he ?_)
  simp only [wp_bind, validateLeaseIndexIdentity_live]
  rw [wp_ofExcept]
  refine ⟨fun _ _ => ?_, by rintro _ ⟨⟩⟩
  rw [wp_require, hsame]
  refine ⟨fun _ => ?_, by rintro ⟨⟩⟩
  refine wp_requireEmptyLeaseRef (hrefs _ (by simp [LiveLease.refFiles])) ?_
  refine wp_requireEmptyLeaseRef (hrefs _ (by simp [LiveLease.refFiles])) ?_
  refine wp_requireEmptyLeaseRef (hrefs _ (by simp [LiveLease.refFiles])) ?_
  rw [wp_utcNow, wp_pure]
  exact hQ

/-- A live lease of the endpoint that was not expired at a clock reading. -/
structure ActiveLease (T : LeaseTable) (endpointId : DurableRecordId) (lease : Lease) : Prop where
  live : ∃ e, T.read lease.leaseId = some e ∧ e.lease = lease ∧ lease.endpointId = endpointId
  unexpired : ∃ n, lease.isExpired (Entropy.clock n) = false

section

variable (hrest : AtRest T s) (hT : T.Named) (hcls : ∀ id e, T.read id = some e → e.cluster ≠ "")

include hrest hT hcls

/-- At rest the references of an endpoint are followed one by one: each of its leases is found once,
unless it is expired by the clock read for it, and nothing else is. -/
theorem AtRest.wp_gatherActiveLeases {Q : Post (List Lease)}
    {refs : List (RefToken × LeaseIdentityToken)} (hrefs : EndpointRefs T endpointId refs)
    (hQ : ∀ active w, (∀ lease ∈ active, ActiveLease T endpointId lease) →
      (active.map Lease.leaseId).Nodup →
      (∀ id e, T.read id = some e → e.lease.endpointId = endpointId → e.lease ∈ active ∨
        ∃ n, e.lease.isExpired (Entropy.clock n) = true) → Q active s w) :
    wp (gather (activeLease endpointId) refs) C Q E s v := by
  have hloop := wp_gather (C := C) (E := E)
    (fun rest active t _ => t = s ∧ rest.Nodup ∧ (∀ r ∈ rest, r ∈ refs) ∧
      (∀ lease ∈ active, ActiveLease T endpointId lease) ∧ (active.map Lease.leaseId).Nodup ∧
      (∀ r ∈ rest, ∀ lease ∈ active, r.1 ≠ leaseIndexToken lease.leaseId) ∧
      ∀ id e, T.read id = some e → e.lease.endpointId = endpointId →
        leaseReference e.identity ∈ rest ∨ e.lease ∈ active ∨
          ∃ n, e.lease.isExpired (Entropy.clock n) = true)
    (activeLease endpointId) (fun r rest active t w hJ => ?_) refs [] s v
    ⟨rfl, hrefs.nodup, fun _ h => h, by simp, by simp, by simp,
      fun id e he hendp => .inl ((hrefs.mem _).2 ⟨id, e, he, hendp, rfl⟩)⟩
  · refine wp_imp hloop fun active t w hJ => ?_
    obtain ⟨rfl, -, -, hactive, hnd, -, hall⟩ := hJ
    exact hQ active w hactive hnd fun id e he hendp =>
      (hall id e he hendp).resolve_left (by simp)
  · obtain ⟨rfl, hnd, hsub, hactive, hids, hnew, hall⟩ := hJ
    obtain ⟨id, e, he, hendp, rfl⟩ := (hrefs.mem r).1 (hsub r (.head _))
    have hname := hT id e he
    have hlater : ∀ r ∈ rest, r.1 ≠ leaseIndexToken e.lease.leaseId := by
      intro r hr heq
      obtain ⟨id', e', he', -, rfl⟩ := (hrefs.mem r).1 (hsub r (.tail _ hr))
      exact (List.nodup_cons.1 hnd).1 (hT.unique he he' heq ▸ hr)
    refine hrest.wp_activeLease hT he (hcls id e he) hendp
      ⟨rfl, (List.nodup_cons.1 hnd).2, fun r hr => hsub r (.tail _ hr), ?_⟩
    -- The lease of this reference is either collected, or expired at this reading.
    have hself : ∀ id' e', T.read id' = some e' →
        leaseReference e'.identity = leaseReference e.identity → e' = e :=
      fun id' e' he' heq => hT.unique he he' (congrArg Prod.fst heq)
    split
    · next hexpired =>
        rw [List.append_nil]
        refine ⟨hactive, hids, fun r hr => hnew r (.tail _ hr), fun id' e' he' hendp' => ?_⟩
        rcases hall id' e' he' hendp' with h | h
        · rcases List.mem_cons.1 h with h | h
          · rw [hself id' e' he' h]
            exact .inr (.inr ⟨w.ticks, hexpired⟩)
          · exact .inl h
        · exact .inr h
    · next hlive =>
        refine ⟨fun lease hlease => ?_, ?_, fun r hr lease hlease => ?_,
          fun id' e' he' hendp' => ?_⟩
        · rcases List.mem_append.1 hlease with hlease | hlease
          · exact hactive lease hlease
          · rw [List.mem_singleton.1 hlease]
            exact ⟨⟨e, by rw [hname]; exact he, rfl, hendp⟩, w.ticks, by simpa using hlive⟩
        · rw [List.map_append, List.nodup_append]
          refine ⟨hids, by simp, fun a ha b hb hab => ?_⟩
          obtain ⟨lease, hlease, rfl⟩ := List.mem_map.1 ha
          rw [List.map_singleton, List.mem_singleton] at hb
          refine hnew _ (.head _) lease hlease ?_
          rw [hab, hb]
          rfl
        · rcases List.mem_append.1 hlease with hlease | hlease
          · exact hnew r (.tail _ hr) lease hlease
          · rw [List.mem_singleton.1 hlease]
            exact hlater r hr
        · rcases hall id' e' he' hendp' with h | h | h
          · rcases List.mem_cons.1 h with h | h
            · rw [hself id' e' he' h]
              exact .inr (.inl (List.mem_append_right _ (.head _)))
            · exact .inl h
          · exact .inr (.inl (List.mem_append_left _ h))
          · exact .inr (.inr h)

/-- **The live lease of an endpoint**: the only one, or none. -/
theorem AtRest.wp_activeLeaseForEndpoint {Q : Post (Option Lease)}
    (hreuse : ∀ refs, reusable = some refs → Snapshot T refs)
    (hnone : ∀ w, T.Idle endpointId → Q none s w)
    (hsome : ∀ lease w, ActiveLease T endpointId lease → Q (some lease) s w)
    (hE : ¬ T.Parses ∨ T.Crowded endpointId → ∀ err w, E err s w) :
    wp (activeLeaseForEndpoint endpointId reusable) C Q E s v := by
  unfold activeLeaseForEndpoint
  rw [wp_bind]
  refine wp_currentExpiryRefs hrest hT hreuse (fun refs hrefs => ?_) fun h err => hE (.inl h) err v
  rw [wp_bind]
  refine hrest.wp_scanLeaseEndpointRefs hT fun scanned hscanned => ?_
  refine wp_require_then (fun _ => ?_) (by rintro ⟨⟩)
  -- The references that the expiry index expects are those of the endpoint.
  have hexp : EndpointRefs T endpointId ((refs.filter fun token =>
      token.endpointToken == leaseEndpointToken endpointId).map fun token =>
        (token.leaseToken, token)) := by
    refine ⟨?_, fun r => ?_⟩
    · refine (List.Nodup.filter _ hrefs.nodup).map fun a b hab => ?_
      exact congrArg Prod.snd hab
    · simp only [List.mem_map, List.mem_filter, beq_iff_eq, hrefs.mem]
      constructor
      · rintro ⟨_, ⟨⟨id, e, he, rfl⟩, hendp⟩, rfl⟩
        exact ⟨id, e, he, leaseEndpointToken_inj.1 hendp, rfl⟩
      · rintro ⟨id, e, he, rfl, rfl⟩
        exact ⟨_, ⟨⟨id, e, he, rfl⟩, rfl⟩, rfl⟩
  rw [wp_bind, wp_require, decide_eq_true hexp.nodup]
  refine ⟨fun _ => ?_, by rintro ⟨⟩⟩
  have hsame : (scanned.all ((refs.filter fun token =>
      token.endpointToken == leaseEndpointToken endpointId).map fun token =>
        (token.leaseToken, token)).contains && ((refs.filter fun token =>
      token.endpointToken == leaseEndpointToken endpointId).map fun token =>
        (token.leaseToken, token)).all scanned.contains) = true := by
    simp only [Bool.and_eq_true, List.all_eq_true, List.contains_iff_mem]
    exact ⟨fun r hr => (hexp.mem r).2 ((hscanned.mem r).1 hr),
      fun r hr => (hscanned.mem r).2 ((hexp.mem r).1 hr)⟩
  rw [wp_bind, wp_require, hsame]
  refine ⟨fun _ => ?_, by rintro ⟨⟩⟩
  rw [wp_bind]
  refine hrest.wp_gatherActiveLeases hT hcls hscanned fun active w hactive hnd hall => ?_
  refine wp_require_then (fun hone => (wp_pure _).2 ?_) fun hmany => hE (.inr ?_) _ _
  · rcases active with _ | ⟨lease, rest⟩
    · exact hnone w fun id e he hendp => (hall id e he hendp).resolve_left (by simp)
    · exact hsome lease w (hactive lease (.head _))
  · rcases active with _ | ⟨a, _ | ⟨b, rest⟩⟩
    · simp at hmany
    · simp at hmany
    · obtain ⟨⟨e, he, rfl, hendp⟩, hlive⟩ := hactive a (.head _)
      obtain ⟨⟨e', he', rfl, hendp'⟩, hlive'⟩ := hactive b (.tail _ (.head _))
      refine ⟨_, _, e, e', fun heq => ?_, he, he', hendp, hendp', hlive, hlive'⟩
      rw [List.map_cons, List.map_cons, List.nodup_cons] at hnd
      exact hnd.1 (by rw [heq]; exact .head _)

end

/-! ### MCP admissions -/

/-- `_job_matches_mcp_admission_class`, on the job of a live lease. -/
def LiveLease.inClass (e : LiveLease) (admissionClass : McpAdmissionClass) : Bool :=
  match e.kind, e.spec with
  | .mcpCall, .mcpCall spec => spec.admissionClass == admissionClass
  | _, _ => admissionClass == .workload

omit [Entropy] in
theorem LiveLease.IsOf.inClass (h : e.IsOf job) (admissionClass : McpAdmissionClass) :
    jobMatchesMcpAdmissionClass job admissionClass = e.inClass admissionClass := by
  have hclass : jobMatchesMcpAdmissionClass job admissionClass =
      jobMatchesMcpAdmissionClass { job with kind := e.kind, spec := e.spec } admissionClass := by
    rw [← h.2.1, ← h.2.2]
  exact hclass

/-- The live leases of a cluster on MCP calls of a class. -/
def LeaseTable.mcpCount (T : LeaseTable) (cluster : String) (admissionClass : McpAdmissionClass) :
    Nat :=
  Files.count (fun _ e => e.cluster == cluster && e.kind == .mcpCall && e.inClass admissionClass) T

/-- The jobs of the leases of a cluster on MCP calls name their endpoints. -/
def McpHeld (T : LeaseTable) (s : Store) (cluster : String) : Prop :=
  ∀ id e job, T.read id = some e → e.cluster = cluster → e.kind = .mcpCall →
    s.read (.job e.lease.jobId) = some job → job.leasedBy = some e.lease.endpointId.value

omit [Entropy] in
/-- A lease takes a turn in an MCP lane exactly if it is held by an MCP call of the cluster and of
the admission class. -/
theorem AtRest.wp_mcpAdmissionTurn (hrest : AtRest T s) (hjobs : JobsOk s) (hT : T.Backed s)
    (he : T.read id = some e)
    (hQ : Q (if e.cluster == cluster && e.kind == .mcpCall && e.inClass admissionClass then [leaseIdentityToken e.identity] else []) s v)
    (hE : ¬ McpHeld T s cluster → ∀ err, E err s v) :
    wp (mcpAdmissionTurn cluster admissionClass (leaseIdentityToken e.identity)) C Q E s v := by
  obtain ⟨job, hjob, hof⟩ := hT.job id e he
  have hcl := (hT.job_of hjobs he hjob).2.1
  unfold mcpAdmissionTurn
  rw [wp_ite]
  constructor
  · intro h
    have hnot : (e.cluster == cluster && e.kind == .mcpCall && e.inClass admissionClass) = false := by
      refine Bool.eq_false_iff.2 fun hall => ?_
      simp only [Bool.and_eq_true, beq_iff_eq] at hall
      obtain ⟨⟨h₁, h₂⟩, -⟩ := hall
      rcases h with h | h
      · exact h (leaseClusterToken_inj.2 h₁)
      · exact h h₂
    rw [hnot] at hQ
    exact (wp_pure _).2 hQ
  · intro h
    obtain ⟨hsame, hkind⟩ := not_or.1 h
    obtain rfl : e.cluster = cluster := leaseClusterToken_inj.1 (not_not.1 hsame)
    have hkind : e.kind = .mcpCall := not_not.1 hkind
    have hident : (e.identity.cluster == e.cluster && e.identity.jobKind == .mcpCall &&
        leaseEndpointToken e.identity.endpointId == (leaseIdentityToken e.identity).endpointToken &&
        leaseJobToken e.identity.jobId == (leaseIdentityToken e.identity).jobToken &&
        leaseExpiryKey e.identity.expiresAt == (leaseIdentityToken e.identity).expiresKey) =
          true := by
      simp [leaseIdentityToken, LiveLease.identity, hkind]
    rw [beq_self_eq_true, hkind, beq_self_eq_true, Bool.and_self, Bool.true_and] at hQ
    simp only [mcpAdmission, wp_bind]
    refine hrest.wp_readByToken hT.named he hcl ?_
    rw [wp_require, hident]
    refine ⟨fun _ => hrest.wp_readLease_live hT.named he ?_, by rintro ⟨⟩⟩
    simp only [wp_bind, validateLeaseIndexIdentity_live]
    rw [wp_ofExcept]
    refine ⟨fun _ _ => wp_getJob hjobs (fun job' hjob' => ?_) fun hnone => ?_, by rintro _ ⟨⟩⟩
    · obtain rfl : job = job' := Option.some.inj (hjob.symm.trans hjob')
      rw [wp_require]
      refine ⟨fun _ => ?_, fun hleased => hE (fun hheld => ?_) _⟩
      · rw [wp_pure, wp_pure, hof.inClass]
        exact hQ
      · have hleasedBy := hheld id e job he rfl hkind hjob
        simp [hof.1, hof.2.1, hkind, hleasedBy, LiveLease.identity] at hleased
    · exact absurd (hjob.symm.trans hnone) (by simp)

omit [Entropy] in
/-- **The count of a class.** -/
theorem AtRest.wp_activeMcpAdmissionCount {Q : Post Nat} (hrest : AtRest T s)
    (hjobs : JobsOk s) (hT : T.Backed s)
    (hreuse : ∀ refs, reusable = some refs → Snapshot T refs)
    (hQ : Q (T.mcpCount cluster admissionClass) s v)
    (hE : ¬ T.Parses ∨ ¬ McpHeld T s cluster → ∀ err, E err s v) :
    wp (activeMcpAdmissionCount cluster admissionClass reusable) C Q E s v := by
  unfold activeMcpAdmissionCount
  rw [wp_bind]
  refine wp_currentExpiryRefs hrest hT.named hreuse (fun refs hrefs => ?_)
    fun h err => hE (.inl h) err
  rw [wp_bind]
  let counts (e : LiveLease) : Bool :=
    e.cluster == cluster && e.kind == .mcpCall && e.inClass admissionClass
  let listed := T.collect fun _ e => if counts e then some (leaseIdentityToken e.identity) else none
  have hsame : ∀ {id id' e e'}, T.read id = some e → T.read id' = some e' →
      leaseIdentityToken e.identity = leaseIdentityToken e'.identity → id = id' := by
    intro id id' e e' he he' heq
    have hid := congrArg LeaseIndexIdentity.leaseId (leaseIdentityToken_inj.1 heq)
    rw [← hT.named id e he, ← hT.named id' e' he']
    exact hid
  have hlist : ∀ {id e}, T.read id = some e →
      (leaseIdentityToken e.identity ∈ listed ↔ counts e = true) := by
    intro id e he
    simp only [listed, mem_collect, Option.ite_none_right_eq_some, Option.some.injEq]
    constructor
    · rintro ⟨id', e', he', hcnt, heq⟩
      rw [hsame he' he heq, he] at he'
      cases he'
      exact hcnt
    · exact fun hcnt => ⟨id, e, he, hcnt, rfl⟩
  have hnd : listed.Nodup := by
    refine nodup_collect fun id e id' e' x he he' hx hx' => ?_
    simp only [Option.ite_none_right_eq_some, Option.some.injEq] at hx hx'
    exact hsame he he' (hx.2.trans hx'.2.symm)
  -- The loop keeps the references of the counted leases.
  have hloop := wp_gather (C := C) (E := E)
    (fun rest counted t w => t = s ∧ w = v ∧ (∀ token ∈ rest, token ∈ refs) ∧
      counted ++ rest.filter (fun token => decide (token ∈ listed)) =
        refs.filter fun token => decide (token ∈ listed))
    (mcpAdmissionTurn cluster admissionClass) (fun token rest counted t w hJ => ?_) refs [] s v
    ⟨rfl, rfl, fun _ h => h, rfl⟩
  · refine wp_imp hloop fun counted t w hJ => ?_
    obtain ⟨rfl, rfl, -, hcounted⟩ := hJ
    have hperm : counted.Perm listed := by
      rw [List.filter_nil, List.append_nil, List.nil_append] at hcounted
      rw [hcounted]
      refine (List.perm_ext_iff_of_nodup (hrefs.nodup.filter _) hnd).2 fun token => ?_
      rw [List.mem_filter, decide_eq_true_eq, and_iff_right_iff_imp]
      intro htok
      obtain ⟨id, e, he, hf⟩ := Files.mem_collect.1 htok
      rw [Option.ite_none_right_eq_some, Option.some.injEq] at hf
      exact (hrefs.mem token).2 ⟨id, e, he, hf.2.symm⟩
    have hlen : listed.length = T.mcpCount cluster admissionClass := by
      rw [length_collect]
      refine count_congr fun id => ?_
      simp [counts, Option.isSome_ite]
    rw [wp_pure, hperm.length_eq, hlen]
    exact hQ
  · obtain ⟨rfl, rfl, hsub, hcounted⟩ := hJ
    obtain ⟨id, e, he, rfl⟩ := (hrefs.mem token).1 (hsub token (.head _))
    refine hrest.wp_mcpAdmissionTurn hjobs hT he ⟨rfl, rfl, fun t ht => hsub t (.tail _ ht), ?_⟩
      fun h err => hE (.inr h) err
    rw [← hcounted, List.filter_cons]
    by_cases hcnt : counts e = true
    · rw [if_pos (decide_eq_true ((hlist he).2 hcnt)), if_pos hcnt, List.append_assoc]
      rfl
    · rw [if_neg (fun h => hcnt ((hlist he).1 (of_decide_eq_true h))), if_neg hcnt, List.append_nil]

/-! ### Queued jobs -/

/-- A canonical job in state `QUEUED`. -/
structure QueuedJob (s : Store) (job : RelayJob) : Prop where
  canonical : s.read (.job job.jobId) = some job
  state : job.state = .queued

omit [Entropy] in
theorem QueuedJob.quiet {t : Store} (h : QueuedJob s job) (ht : Quiet s t) : QueuedJob t job :=
  ⟨by rw [ht.same (.job job.jobId) trivial, h.canonical], h.state⟩

omit [Entropy] in
/-- **The queued jobs**, in the order of their submission. -/
theorem wp_queuedJobs {Q : Post (List RelayJob)} (hjobs : JobsOk s)
    (hquiet : ∀ id, s.read (.intent (.jobSync id)) = none) (hC : ∀ t, Quiet s t → C t)
    (hQ : ∀ jobs t w, Quiet s t → (∀ job ∈ jobs, QueuedJob s job) → Q jobs t w)
    (hE : ∀ err t w, Quiet s t → E err t w) : wp queuedJobs C Q E s v := by
  have hlist : ∀ entry ∈ s.collect queuedJobsListed,
      QueuedJob s entry.2 ∧ entry.2.jobId = entry.1 := by
    rintro ⟨id, job⟩ hent
    obtain ⟨p, c, hread, hf⟩ := Files.mem_collect.1 hent
    unfold queuedJobsListed at hf
    split at hf
    · cases hf
      obtain ⟨hjob, hst⟩ := hjobs.queued _ _ hread (hquiet _)
      have hname := hjobs.named _ _ hjob
      exact ⟨⟨by rw [hname]; exact hjob, hst⟩, hname⟩
    · cases hf
  have hnames : ((s.collect queuedJobsListed).take maxActiveJobRecords).all
      (fun entry => entry.2.jobId == entry.1) = true := by
    refine List.all_eq_true.2 fun entry hent => beq_iff_eq.2 ?_
    exact (hlist entry (List.mem_of_mem_take hent)).2
  unfold queuedJobs
  simp only [scanMany, wp_bind, wp_listing, wp_require, hnames, wp_pure]
  refine ⟨fun _ => ?_, by rintro ⟨⟩⟩
  have hkeyed := wp_gather (C := C) (E := E)
    (fun rest keyed t _ => Quiet s t ∧ (∀ job ∈ rest, QueuedJob s job) ∧
      ∀ entry ∈ keyed, QueuedJob s entry.2) jobSubmissionOrder
    (fun job rest keyed t w hJ => ?_)
    (((s.collect queuedJobsListed).take maxActiveJobRecords).map Prod.snd) [] s v
    ⟨.refl s, fun job hjob => ?_, by simp⟩
  · refine wp_imp hkeyed fun keyed t w hJ => ?_
    obtain ⟨ht, -, hall⟩ := hJ
    refine hQ _ t w ht fun job hjob => ?_
    obtain ⟨entry, hent, rfl⟩ := List.mem_map.1 hjob
    exact hall entry ((List.perm_insertionSort _ _).mem_iff.1 hent)
  · obtain ⟨ht, hrest, hall⟩ := hJ
    unfold jobSubmissionOrder
    rw [wp_bind]
    refine (quiet_ensureGlobal .jobs job.jobId).wp (fun u hu => hC u (ht.trans hu))
      (fun sequence u w hu => (wp_pure _).2 ⟨ht.trans hu, fun j hj => hrest j (.tail _ hj), ?_⟩)
      fun err u w hu => hE err u w (ht.trans hu)
    intro entry hent
    rcases List.mem_append.1 hent with h | h
    · exact hall entry h
    · rw [List.mem_singleton.1 h]
      exact hrest job (.head _)
  · obtain ⟨entry, hent, rfl⟩ := List.mem_map.1 hjob
    exact (hlist entry (List.mem_of_mem_take hent)).1

end

end ClioQueue
