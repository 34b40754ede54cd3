/-
# Deleting and renewing a lease

The two lease operations that leave the job alone, from a queue at rest and from
every state in which they may have been stopped.
-/

import ClioQueue.LeaseLedger
import ClioQueue.Leases

namespace ClioQueue

open Durable Durable.Prog

section

variable {C : Store → Prop} {Q : Post Unit}
  {E : Post RelayError} {s₀ s : Store} {v : Supply}
  {T : LeaseTable} {e : LiveLease} {transition : LeaseCapacityTransition}

/-! ### Deletion -/

theorem validateLeaseIndexIdentity_live : validateLeaseIndexIdentity e.lease e.identity = .ok () := by
  simp [validateLeaseIndexIdentity, LeaseIndexIdentity.describes, LiveLease.identity]

/-- The manifest of a live lease, on the way to a table without the lease. -/
theorem Tearing.manifest_removed {I : TransitionIntent} {ids : List DurableRecordId}
    (h : Tearing I transition T (T.remove ids) s₀ s) (hT : T.Named)
    (he : T.read e.lease.leaseId = some e) (hid : e.lease.leaseId ∈ ids) :
    ∀ identity, s.read e.identity.indexPath = some identity → identity = e.identity := by
  have hp : e.identity.indexPath ∈ e.files := .tail _ (.tail _ (.head _))
  intro identity hread
  rcases h.moving.between e.identity.indexPath trivial with hr | hr
  · rw [LeaseTable.file_live hT he hp, hread] at hr
    exact Option.some.inj hr
  · rw [LeaseTable.file_remove_files hid hp, hread] at hr
    cases hr

section

variable (h : Tearing (.leaseDelete e.lease e.identity transition) transition T (T.remove
    [e.lease.leaseId]) s₀ s)
  (hT : T.Named) (he : T.read e.lease.leaseId = some e) (hcl : e.cluster ≠ "")
  (hbtw : transition.Between T (T.remove [e.lease.leaseId]))
  (hC : ∀ t, Tearing (.leaseDelete e.lease e.identity transition) transition T (T.remove
    [e.lease.leaseId]) s₀ t → C t)
  (hC' : ∀ t, Moved (.leaseDelete e.lease.leaseId) (T.remove [e.lease.leaseId]) s₀ t → C t)
  (hQ : ∀ t w, Moved (.leaseDelete e.lease.leaseId) (T.remove [e.lease.leaseId]) s₀ t → Q () t w)

include h hT he hcl hbtw hC hC' hQ

/-- **The deletion of a lease**, from wherever an earlier one stopped. -/
theorem wp_finishDeletion :
    wp (deleteLeaseFiles e.lease e.identity >>= fun _ =>
      applyLeaseCapacityTransition transition .after s!"lease deletion {e.lease.leaseId}" >>=
        fun _ => unlink (.intent (.leaseDelete e.lease.leaseId))) C Q E s v := by
  have hid : e.lease.leaseId ∈ [e.lease.leaseId] := .head _
  rw [wp_bind]
  refine wp_removeLeaseFiles (.start h.moving) (fun p hp => LeaseTable.file_remove_files hid hp)
    hcl (h.manifest_removed hT he hid) (fun t ht => hC t (h.moved ht)) fun t ht => ?_
  refine (h.moved ht).wp_commit hbtw rfl hbtw.after ?_ (fun t ht _ => hC t ht) hC' hQ
  refine ht.moving.finish fun p _ hp => LeaseTable.file_remove_eq hT fun id e' hid' he' => ?_
  obtain rfl := List.mem_singleton.1 hid'
  rw [he] at he'
  cases he'
  exact fun hp' => hp (.inl hp')

theorem wp_replayLeaseDelete : wp (replayLeaseDelete e.lease e.identity transition) C Q E s v := by
  unfold replayLeaseDelete
  rw [wp_bind, wp_ofExcept, validateLeaseIndexIdentity_live]
  exact ⟨fun _ _ => wp_finishDeletion h hT he hcl hbtw hC hC' hQ, nofun⟩

end

theorem LeaseTable.Backed.job_of (hT : T.Backed s) (hjobs : JobsOk s) {id : DurableRecordId}
    (he : T.read id = some e) {job : RelayJob} (hjob : s.read (.job e.lease.jobId) = some job) :
    e.IsOf job ∧ e.cluster ≠ "" ∧ leaseIndexIdentity e.lease job = .ok e.identity := by
  obtain ⟨job', hjob', hof⟩ := hT.job id e he
  obtain rfl : job = job' := Option.some.inj (hjob.symm.trans hjob')
  refine ⟨hof, ?_, leaseIndexIdentity_live (hjobs.named _ _ hjob).symm hof.1 hof.2.1⟩
  rw [← hof.1]
  exact hjobs.cluster _ _ hjob

/-- A store in which every manifest is that of a live lease. -/
theorem AtRest.manifest (hrest : AtRest T s) (hT : T.Named) (he : T.read e.lease.leaseId = some e) :
    s.read (.leaseIndex (leaseIndexToken e.lease.leaseId)) = some e.identity := by
  have hp : e.identity.indexPath ∈ e.files := .tail _ (.tail _ (.head _))
  exact (hrest.files e.identity.indexPath trivial).trans (LeaseTable.file_live hT he hp)

theorem wp_deletionIdentity {Q : Post LeaseIndexIdentity}
    {job : Option RelayJob} (hjobs : JobsOk s) (hT : T.Backed s)
    (he : T.read e.lease.leaseId = some e)
    (hjob : ∀ found ∈ job, s.read (.job e.lease.jobId) = some found) (hQ : Q e.identity s v) :
    wp (deletionIdentity e.lease job) C Q E s v := by
  obtain ⟨found, hfound, -⟩ := hT.job _ e he
  have hident := (hT.job_of hjobs he hfound).2.2
  rcases job with _ | job
  · have hname := hjobs.named _ _ hfound
    simp [deletionIdentity, readJob, hfound, hname, hident, hQ]
  · obtain rfl : job = found := Option.some.inj ((hjob job rfl).symm.trans hfound)
    simp [deletionIdentity, hident, hQ]

theorem wp_readLease {Q : Post (Option Lease)} {leaseId : DurableRecordId}
    (hrest : AtRest T s) (hT : T.Named) (hQ : Q ((T.read leaseId).map LiveLease.lease) s v) :
    wp (readLease leaseId) C Q E s v := by
  have hread : s.read (.lease leaseId) = (T.read leaseId).map LiveLease.lease :=
    (hrest.files (.lease leaseId) trivial).trans LeaseTable.file_lease
  have hname : ((T.read leaseId).map LiveLease.lease).all
      (fun lease => lease.leaseId == leaseId) = true := by
    rcases he : T.read leaseId with _ | e
    · rfl
    · simp [hT _ _ he]
  simp [readLease, hread, hname, hQ]

theorem wp_readJob {Q : Post (Option RelayJob)} {jobId : DurableRecordId}
    (hjobs : JobsOk s) (hQ : Q (s.read (.job jobId)) s v) :
    wp (readJob jobId) C Q E s v := by
  rcases hread : s.read (.job jobId) with _ | job
  · simpa [readJob, hread] using hQ
  · rw [hread] at hQ
    simp [readJob, hread, hjobs.named _ _ hread, hQ]

theorem wp_getJob {Q : Post RelayJob} {jobId : DurableRecordId}
    (hjobs : JobsOk s) (hQ : ∀ job, s.read (.job jobId) = some job → Q job s v)
    (hE : s.read (.job jobId) = none → ∀ err, E err s v) :
    wp (getJob jobId) C Q E s v := by
  rcases hread : s.read (.job jobId) with _ | job
  · simp [getJob, readJob, hread, hE]
  · simp [getJob, readJob, hread, hjobs.named _ _ hread, hQ]

/-- **A deletion from rest**: refused before the intent, or carried out. -/
theorem wp_deleteLease [Entropy] {job : Option RelayJob} (hjobs : JobsOk s) (hT : T.Backed s)
    (hrest : AtRest T s) (he : T.read e.lease.leaseId = some e)
    (hjob : ∀ found ∈ job, s.read (.job e.lease.jobId) = some found)
    (hC : ∀ transition t, transition.Between T (T.remove [e.lease.leaseId]) →
      Tearing (.leaseDelete e.lease e.identity transition) transition T
        (T.remove [e.lease.leaseId]) s t → C t)
    (hC' : ∀ t, Moved (.leaseDelete e.lease.leaseId) (T.remove [e.lease.leaseId]) s t → C t)
    (hQ : ∀ t w, Moved (.leaseDelete e.lease.leaseId) (T.remove [e.lease.leaseId]) s t → Q () t w) :
    wp (deleteLease e.lease job) C Q E s v := by
  obtain ⟨found, hfound, -⟩ := hT.job _ e he
  have hcl := (hT.job_of hjobs he hfound).2.1
  have hman := hrest.manifest hT.named he
  obtain ⟨pair, hholds, hexact⟩ := hrest.pair
  have hscopes : T.scopes = Multiset.replicate 1 e.scope + (T.remove [e.lease.leaseId]).scopes :=
    LeaseTable.scopes_remove (List.nodup_singleton _)
      fun id hid => ⟨e, by rw [List.mem_singleton.1 hid, he], rfl⟩
  have hsmall : Multiset.card (T.remove [e.lease.leaseId]).scopes ≤ maxLiveLeaseRecords := by
    have := hexact.small
    rw [hscopes, Multiset.card_add] at this
    omega
  have hdeltas : applyScopeDeltas T.scopes [⟨e.identity.cluster, e.identity.jobKind, -1⟩] =
      .ok (T.remove [e.lease.leaseId]).scopes := by
    rw [hscopes]
    exact applyScopeDeltas_remove (n := 1) one_ne_zero
  unfold deleteLease
  rw [wp_bind]
  refine wp_deletionIdentity hjobs hT he hjob ?_
  rw [wp_bind, wp_ofExcept, validateLeaseIndexIdentity_live]
  refine ⟨fun _ _ => ?_, nofun⟩
  rw [wp_bind, wp_present, hman]
  refine wp_require_then (fun _ => ?_) nofun
  rw [wp_bind]
  refine wp_readLeaseIndexIdentity hman hcl rfl ?_
  refine wp_require_then (fun _ => ?_)
    fun hne => absurd (beq_self_eq_true e.identity) (by rw [hne]; decide)
  rw [wp_bind]
  refine wp_prepareLeaseCapacityTransition hholds hexact hdeltas hsmall
    fun transition w hbtw hbefore _ => ?_
  have hbegin : Tearing (.leaseDelete e.lease e.identity transition) transition T
      (T.remove [e.lease.leaseId]) s (s.write (.intent (.leaseDelete e.lease.leaseId))
        (.leaseDelete e.lease e.identity transition)) :=
    Tearing.begin hrest.files hholds hbefore
  simp only [writeTransitionIntent, TransitionIntent.key, wp_bind, wp_utcNow, wp_put]
  refine ⟨hC transition _ hbtw hbegin, ?_⟩
  simp only [← wp_bind]
  exact wp_finishDeletion hbegin hT.named he hcl hbtw (fun t => hC transition t hbtw) hC' hQ

/-! ### Renewal -/

/-- A lease and its renewal: the same lease, with other times. -/
structure LiveLease.Renews (e old : LiveLease) : Prop where
  leaseId : e.lease.leaseId = old.lease.leaseId
  jobId : e.lease.jobId = old.lease.jobId
  endpointId : e.lease.endpointId = old.lease.endpointId
  cluster : e.cluster = old.cluster
  kind : e.kind = old.kind
  spec : e.spec = old.spec

theorem LiveLease.Renews.indexPath {old : LiveLease} (h : e.Renews old) :
    e.identity.indexPath = old.identity.indexPath := by
  simp [LeaseIndexIdentity.indexPath, LiveLease.identity, h.leaseId]

variable [Platform] {old : LiveLease} {job : RelayJob}

section

variable (h : Tearing (.leaseSync e.lease old.lease job transition) transition T (T.put e) s₀ s)
  (hT : T.Named) (hold : T.read e.lease.leaseId = some old) (hrenews : e.Renews old)
  (hjob : e.lease.jobId = job.jobId) (hof : e.IsOf job) (hcl : e.cluster ≠ "")
  (hbtw : transition.Between T (T.put e))
  (hC : ∀ t, Tearing (.leaseSync e.lease old.lease job transition) transition T (T.put e) s₀ t →
    C t)
  (hC' : ∀ t, Moved (.leaseSync e.lease.leaseId) (T.put e) s₀ t → C t)
  (hQ : ∀ t w, Moved (.leaseSync e.lease.leaseId) (T.put e) s₀ t → Q () t w)
  (hE : ∀ err t w, Tearing (.leaseSync e.lease old.lease job transition) transition T (T.put e) s₀
    t → E err t w)

include h hT hold hrenews hjob hof hcl hbtw hC hC' hQ hE

/-- **The renewal of a lease**, from wherever an earlier one stopped.  It is refused only for a
manifest that exceeds its byte limit. -/
theorem wp_applyLeaseSyncIntent {label : String} :
    wp (applyLeaseSyncIntent e.lease old.lease job transition label) C Q E s v := by
  have hg : ∀ p ∈ e.files, (T.put e).file p = e.content p := fun p hp =>
    LeaseTable.file_put_files hp
  have hcopy : e.content (.leaseByJob e.lease.jobId e.lease.leaseId) = some e.lease := if_pos rfl
  have hgold : ∀ p ∈ old.refFiles, (T.put e).file p = e.content p := fun p hp => by
    refine LeaseTable.file_put_self ?_
    rw [hrenews.leaseId]
    exact LiveLease.leaseKey_files (.tail _ (.tail _ (.tail _ hp)))
  have m₁ := (MovedFrom.start h.moving).write (hg (.lease e.lease.leaseId) (.head _)) trivial
  have m₂ := m₁.write ((hg _ (.tail _ (.head _))).trans hcopy) trivial
  -- On the way the manifest is the old one or the new one.
  have hman : ∀ t, MovedFrom s T.file (T.put e).file (fun _ => False) t →
      ManifestOf e.lease.leaseId t := by
    intro t ht identity hread
    have hp : e.identity.indexPath ∈ e.files := .tail _ (.tail _ (.head _))
    have hp' : e.identity.indexPath ∈ old.files := by
      rw [hrenews.indexPath]
      exact .tail _ (.tail _ (.head _))
    have hread' : t.read e.identity.indexPath = some identity := hread
    rcases ht.moving.between e.identity.indexPath trivial with hr | hr
    · rw [hread', LeaseTable.file_live hT hold hp'] at hr
      obtain rfl : identity = old.identity := Option.some.inj hr
      exact ⟨hrenews.leaseId.symm, by rw [LiveLease.identity, ← hrenews.cluster]; exact hcl⟩
    · rw [hread', hg _ hp] at hr
      obtain rfl : identity = e.identity := Option.some.inj hr
      exact ⟨rfl, hcl⟩
  simp only [applyLeaseSyncIntent, wp_bind, wp_put]
  refine ⟨hC _ (h.moved m₁), hC _ (h.moved m₂), ?_⟩
  refine wp_syncLeaseOperationalIndexes_renew hrenews.leaseId.symm hrenews.jobId.symm
    hrenews.endpointId.symm hrenews.cluster.symm hrenews.kind.symm hjob hof.1 hof.2.1 m₂
    (fun p hp => hg p (.tail _ (.tail _ hp))) hgold hman (fun t ht => hC t (h.moved ht))
    (fun t ht => ?_) fun err t ht => hE err t _ (h.moved ht)
  rw [← wp_bind]
  refine (h.moved ht).wp_commit hbtw rfl hbtw.after ?_ (fun t ht _ => hC t ht) hC' hQ
  refine ht.moving.finish fun p _ hp => LeaseTable.file_replace_eq hT hold (fun hp' => hp ?_)
    fun hp' => hp ?_
  · rcases List.mem_cons.1 hp' with rfl | hp'
    · exact .inr (.inr (.inr (.inl rfl)))
    · rcases List.mem_cons.1 hp' with rfl | hp'
      · exact .inr (.inr (.inl rfl))
      · exact .inl hp'
  · rcases List.mem_cons.1 hp' with rfl | hp'
    · rw [← hrenews.leaseId]
      exact .inr (.inr (.inr (.inl rfl)))
    · rcases List.mem_cons.1 hp' with rfl | hp'
      · rw [← hrenews.leaseId, ← hrenews.jobId]
        exact .inr (.inr (.inl rfl))
      · rcases List.mem_cons.1 hp' with rfl | hp'
        · rw [← hrenews.indexPath]
          exact .inl (.head _)
        · exact .inr (.inl hp')

theorem wp_replayLeaseSync : wp (replayLeaseSync e.lease old.lease job transition) C Q E s v := by
  have hcheck : (e.lease.jobId == job.jobId && old.lease.leaseId == e.lease.leaseId) = true := by
    rw [hjob, hrenews.leaseId, beq_self_eq_true, beq_self_eq_true, Bool.and_self]
  unfold replayLeaseSync
  rw [wp_bind, wp_require, hcheck]
  exact ⟨fun _ => wp_applyLeaseSyncIntent h hT hold hrenews hjob hof hcl hbtw hC hC' hQ hE, nofun⟩

end

/-- What the renewal of a lease prepares. -/
structure Renewal (T : LeaseTable) (s : Store) (leaseId : DurableRecordId) (old e : LiveLease)
    (job : RelayJob) : Prop where
  named : e.lease.leaseId = leaseId
  live : T.read e.lease.leaseId = some old
  renews : e.Renews old
  jobId : e.lease.jobId = job.jobId
  canonical : s.read (.job job.jobId) = some job
  isOf : e.IsOf job
  cluster : e.cluster ≠ ""

/-- **A renewal from rest.** -/
theorem wp_renewCanonicalLease [Entropy] {Q : Post (Option Lease)}
    {leaseId : DurableRecordId} {ttlSeconds : Int} (hjobs : JobsOk s) (hT : T.Backed s)
    (hrest : AtRest T s)
    (hC : ∀ old e job transition t, Renewal T s leaseId old e job → transition.Between T (T.put e) →
      Tearing (.leaseSync e.lease old.lease job transition) transition T (T.put e) s t → C t)
    (hC' : ∀ old e job t, Renewal T s leaseId old e job →
      Moved (.leaseSync e.lease.leaseId) (T.put e) s t → C t)
    (hnone : ∀ w, Q none s w)
    (hQ : ∀ old e job t w, Renewal T s leaseId old e job →
      Moved (.leaseSync e.lease.leaseId) (T.put e) s t → Q (some e.lease) t w)
    (hE : ∀ err w, E err s w)
    (hE' : ∀ old e job transition err t w, Renewal T s leaseId old e job →
      transition.Between T (T.put e) →
        Tearing (.leaseSync e.lease old.lease job transition) transition T (T.put e) s t →
          E err t w) :
    wp (renewCanonicalLease leaseId ttlSeconds) C Q E s v := by
  obtain ⟨pair, hholds, hexact⟩ := hrest.pair
  unfold renewCanonicalLease
  rw [wp_bind]
  refine wp_readLease hrest hT.named ?_
  rcases hold : T.read leaseId with _ | old
  · exact (wp_pure _).2 (hnone _)
  simp only [Option.map_some]
  rw [wp_bind]
  refine wp_getJob hjobs (fun job hjob => ?_) fun _ err => hE err _
  obtain ⟨hof, hcl, -⟩ := hT.job_of hjobs hold hjob
  have hname := hjobs.named _ _ hjob
  simp only [Lease.new, newId, wp_bind, wp_utcNow, wp_uuid4, wp_ofExcept, wp_pure]
  refine ⟨fun expiresAt _ => ⟨fun fresh _ => ?_, fun err _ => hE err _⟩, fun err _ => hE err _⟩
  let e : LiveLease :=
    { old with lease := { old.lease with acquiredAt := Entropy.clock v.ticks, expiresAt } }
  have hid : e.lease.leaseId = leaseId := hT.named leaseId old hold
  have hprep : Renewal T s leaseId old e job :=
    ⟨hid, hid ▸ hold, ⟨rfl, rfl, rfl, rfl, rfl, rfl⟩, hname.symm, hname ▸ hjob, hof, hcl⟩
  have hscopes : (T.put e).scopes = T.scopes := LeaseTable.scopes_replace hprep.live rfl
  have hdeltas : applyScopeDeltas T.scopes [] = .ok (T.put e).scopes := by
    rw [hscopes]
    rfl
  refine wp_prepareLeaseCapacityTransition hholds hexact hdeltas
    (by rw [hscopes]; exact hexact.small) fun transition w hbtw hbefore _ => ?_
  have hbegin : Tearing (.leaseSync e.lease old.lease job transition) transition T (T.put e) s
      (s.write (.intent (.leaseSync e.lease.leaseId))
        (.leaseSync e.lease old.lease job transition)) :=
    Tearing.begin hrest.files hholds hbefore
  simp only [writeTransitionIntent, TransitionIntent.key, wp_bind, wp_utcNow, wp_put]
  refine ⟨hC old e job transition _ hprep hbtw hbegin, ?_⟩
  exact wp_applyLeaseSyncIntent hbegin hT.named hprep.live hprep.renews hprep.jobId
    hof hcl hbtw (fun t => hC old e job transition t hprep hbtw)
    (fun t => hC' old e job t hprep) (fun t w => hQ old e job t w hprep)
    fun err t w => hE' old e job transition err t w hprep hbtw

end

end ClioQueue
