/-
# The operations keep the ledger

`Standing P T` is a settled queue whose lease table meets `P` and whose random
lease ids are unused.  Every building block of the lease and job operations leads
from it to a ledger, wherever the process stops, and back to it when it
completes; `P` is a property of tables that removals keep (`Hereditary`) and that
the admissible acquisitions and the renewals of a call keep.
-/

import ClioQueue.JobUpkeep

namespace ClioQueue

open Durable Durable.Prog Durable.Files

section

variable {T U : LeaseTable} {s t : Store} {key : IntentKey} {P : LeaseTable → Prop}

/-! ### Settled queues -/

theorem Settled.noCapacity (h : Settled T s) : NoCapacityIntent s := fun key _ => h.quiet key

theorem Settled.alone (h : Settled T s) (key : IntentKey) : Alone key s :=
  h.noCapacity.alone key

theorem jobFile.watched {p : Path} (hp : jobFile p) : watched p := by
  cases p <;> first | exact hp.elim | trivial

theorem leaseFile.watched {p : Path} (hp : leaseFile p) : watched p := by
  cases p <;> first | exact hp.elim | trivial

theorem capacityFile.watched {p : Path} (hp : capacityFile p) : watched p := by
  cases p <;> first | exact hp.elim | trivial

theorem Settled.ofQuiet (h : Settled T s) (ht : Quiet s t) : Settled T t := by
  have hagree : Agree (fun p => ¬ watched p) s t := fun p hp => ht.same p (not_not.1 hp)
  have hkeys : ∀ k, t.read (.intent k) = none := fun k =>
    (ht.same (.intent k) trivial).trans (h.quiet k)
  have hbooks : Books T t := by
    refine ⟨h.books.jobs.frame fun p hp => ht.same p hp.watched, fun k I hread => ?_,
      h.books.backed.frame fun id => ht.same (.job id) trivial⟩
    rw [hkeys k] at hread
    cases hread
  have hrest : AtRest T t := h.atRest.frame hagree fun p hp =>
    ⟨fun hp' => hp hp'.watched, fun hp' => hp hp'.watched⟩
  exact ⟨hbooks, hrest, hkeys⟩

/-- The end of a lease operation that began in a queue without other intents. -/
theorem Moved.settled (ht : Moved key U s t) (hbooks : Books U s)
    (hkey : key.carriesCapacity = true) (hquiet : ∀ k, k ≠ key → s.read (.intent k) = none) :
    Settled U t := by
  refine ⟨hbooks.moved hkey ht, ht.atRest, fun k => ?_⟩
  by_cases hk : k = key
  · rw [hk, ht.intent]
  · rw [ht.agree _ fun hp => hk (ledgerFile.eq_of_intent hp), hquiet k hk]

theorem Settled.repaired (h : Settled T s) (ht : Agree repairFile s t)
    (hnone : t.read (.intent .leaseIndexRepair) = none) (hrest : AtRest T t) : Settled T t := by
  refine ⟨h.books.repaired ht hnone, hrest, fun k => ?_⟩
  by_cases hk : k = .leaseIndexRepair
  · rw [hk, hnone]
  · rw [ht _ fun hp => hk (repairFile.eq_of_intent hp), h.quiet]

/-- A queue at rest without intents, from what a replay leaves. -/
theorem Settles.settled (h : Settles P key s t)
    (hquiet : ∀ k, k ≠ key → s.read (.intent k) = none) : ∃ U, Settled U t ∧ P U := by
  obtain ⟨U, hbooks, -, hrest, hP⟩ := h.rest
  refine ⟨U, ⟨hbooks, hrest, fun k => ?_⟩, hP⟩
  rcases hread : t.read (.intent k) with _ | I
  · rfl
  · obtain ⟨hne, hread'⟩ := h.intents k I hread
    rw [hquiet k hne] at hread'
    cases hread'

/-- The lease files of a settled queue are its table. -/
theorem Settled.read_lease (h : Settled T s) (id : DurableRecordId) :
    s.read (.lease id) = (T.read id).map LiveLease.lease :=
  (h.atRest.files (.lease id) trivial).trans LeaseTable.file_lease

/-- An intent that carries a capacity transition is written. -/
theorem Settled.booksWritten {I : TransitionIntent} (h : Settled T s)
    (hI : I.key.carriesCapacity = true) : Books T (s.write (.intent I.key) I) := by
  have hagree := agree_write (A := (· = Path.intent I.key)) rfl s I
  have hkeys : ∀ k, Path.intent k = Path.intent I.key → k = I.key := fun k hk => by
    cases hk
    rfl
  refine h.books.frame hagree (fun p hp => ?_) hkeys fun J hJ => ?_
  · rw [hp]
    exact ledgerFile.not_jobFile hI (.inr (.inr rfl))
  · rw [read_write_self] at hJ
    cases hJ
    exact ⟨rfl, carriesCapacity.ofLedger hI⟩

theorem Settled.aloneWritten (I : TransitionIntent) (h : Settled T s) :
    Alone I.key (s.write (.intent I.key) I) := by
  have hagree := agree_write (A := (· = Path.intent I.key)) rfl s I
  refine (h.alone _).frame hagree fun k _ hne hk => hne ?_
  cases hk
  rfl

theorem Settled.quietWritten (I : TransitionIntent) (h : Settled T s) :
    ∀ k, k ≠ I.key → (s.write (.intent I.key) I).read (.intent k) = none := by
  intro k hk
  rw [read_write_ne _ (by simpa using hk), h.quiet]

/-! ### The job index -/

/-- The entry of a job in the active index, and its queued copy, are set to the canonical job. -/
theorem JobsOk.writeQueued {job : RelayJob} (h : JobsOk s)
    (hread : s.read (.job job.jobId) = some job) (hst : job.state = .queued) :
    JobsOk (s.write (.jobQueued job.jobId) job) := by
  constructor
  · intro id found hfound
    rw [read_write_ne _] at hfound
    exact h.named id found hfound
  · intro id found hfound
    rw [read_write_ne _] at hfound
    exact h.cluster id found hfound
  · intro id copy hcopy hsync
    rw [read_write_ne _] at hsync ⊢
    by_cases hid : id = job.jobId
    · subst hid
      rw [read_write_self] at hcopy
      cases hcopy
      exact ⟨hread, hst⟩
    · rw [read_write_ne _ (by simpa using hid)] at hcopy
      exact h.queued id copy hcopy hsync
  · intro id hcopy
    rw [read_write_ne _]
    by_cases hid : id = job.jobId
    · rw [hid, hread]
      rfl
    · rw [read_write_ne _ (by simpa using hid)] at hcopy
      exact h.copied id hcopy

theorem JobsOk.unlinkQueued (h : JobsOk s) (jobId : DurableRecordId) :
    JobsOk (s.unlink (.jobQueued jobId)) := by
  have hqueued : ∀ id copy, (s.unlink (.jobQueued jobId)).read (.jobQueued id) = some copy →
      s.read (.jobQueued id) = some copy := by
    intro id copy hcopy
    rw [read_unlink] at hcopy
    split at hcopy
    · cases hcopy
    · exact hcopy
  constructor
  · intro id found hfound
    rw [read_unlink_ne] at hfound
    exact h.named id found hfound
  · intro id found hfound
    rw [read_unlink_ne] at hfound
    exact h.cluster id found hfound
  · intro id copy hcopy hsync
    rw [read_unlink_ne] at hsync ⊢
    exact h.queued id copy (hqueued id copy hcopy) hsync
  · intro id hcopy
    rw [read_unlink_ne]
    obtain ⟨copy, hcopy⟩ := Option.isSome_iff_exists.1 hcopy
    exact h.copied id (by rw [hqueued id copy hcopy]; rfl)

theorem JobsOk.active (h : JobsOk s) {jobId : DurableRecordId} {A : Path → Prop}
    (hA : ∀ p, A p → p = .jobActive jobId) (ht : Agree A s t) : JobsOk t := by
  refine h.frame fun p hp => ht p fun hp' => ?_
  rw [hA p hp'] at hp
  exact hp

section

variable [Platform] {v : Supply} {E : Post RelayError} {C : Store → Prop} {Q : Post Unit}

section

variable (hjobs : JobsOk s) (hC : ∀ t, JobsOk t → Agree copyFile s t → C t)
  (hQ : ∀ t w, JobsOk t → Agree copyFile s t → Q () t w)
  (hE : ∀ err t w, JobsOk t → Agree copyFile s t → E err t w)

include hjobs hC hQ hE

theorem wp_repairActiveJob {entry : DurableRecordId × RelayJob} :
    wp (repairActiveJob entry) C Q E s v := by
  have hactive : copyFile (.jobActive entry.1) := trivial
  have hqueued : ∀ id, copyFile (.jobQueued id) := fun _ => trivial
  -- A stale entry goes, and its queued copy with it.
  have hdrop : wp (unlink (.jobActive entry.1) >>= fun _ => unlink (.jobQueued entry.2.jobId))
      C Q E s v := by
    have hagree := agree_unlink hactive s
    have hok : JobsOk (s.unlink (.jobActive entry.1)) :=
      hjobs.active (fun _ h => h) (agree_unlink (A := (· = Path.jobActive entry.1)) rfl s)
    have hagree' := hagree.trans (agree_unlink (hqueued entry.2.jobId) _)
    simp only [wp_bind, wp_unlink]
    exact ⟨hC _ hok hagree, hC _ (hok.unlinkQueued _) hagree', hQ _ _ (hok.unlinkQueued _) hagree'⟩
  unfold repairActiveJob
  rw [wp_bind]
  refine wp_readJob hjobs ?_
  rcases hread : s.read (.job entry.2.jobId) with _ | job
  · exact hdrop
  · have hname := hjobs.named _ _ hread
    simp only
    refine wp_cases (fun _ => hdrop) fun _ => ?_
    have hagree := agree_write hactive s job
    have hok : JobsOk (s.write (.jobActive entry.1) job) :=
      hjobs.active (fun _ h => h) (agree_write (A := (· = Path.jobActive entry.1)) rfl s job)
    have hread' : (s.write (.jobActive entry.1) job).read (.job job.jobId) = some job := by
      rw [read_write_ne _, hname, hread]
    refine wp_putWithin_then (fun _ => ⟨hC _ hok hagree, ?_⟩)
      fun _ => hE _ _ _ hjobs (Agree.refl _ s)
    rw [wp_ite]
    constructor
    · intro hst
      have hagree' := hagree.trans (agree_write (hqueued job.jobId) _ job)
      have hok' := hok.writeQueued hread' hst
      exact wp_putWithin.2 ⟨fun _ => ⟨hC _ hok' hagree', hQ _ _ hok' hagree'⟩,
        fun _ => hE _ _ _ hok hagree⟩
    · intro _
      have hagree' := hagree.trans (agree_unlink (hqueued job.jobId) _)
      exact wp_unlink.2 ⟨hC _ (hok.unlinkQueued _) hagree', hQ _ _ (hok.unlinkQueued _) hagree'⟩

theorem wp_repairActiveJobIndex : wp repairActiveJobIndex C Q E s v := by
  unfold repairActiveJobIndex
  rw [wp_bind]
  refine wp_boundedListing (fun _ => ?_) fun _ err => hE err s v hjobs (Agree.refl _ s)
  refine wp_each (fun _ t _ => JobsOk t ∧ Agree copyFile s t) _
    (fun entry rest t w hJ => ?_) (fun t w hJ => hQ t w hJ.1 hJ.2) _ s v
    ⟨hjobs, Agree.refl _ s⟩
  obtain ⟨hok, hagree⟩ := hJ
  exact wp_repairActiveJob hok (fun u hok' hu => hC u hok' (hagree.trans hu))
    (fun u w hok' hu => ⟨hok', hagree.trans hu⟩) fun err u w hok' hu =>
      hE err u w hok' (hagree.trans hu)

end

end

end

section

variable [Platform] [Entropy]

/-! ### The building blocks -/

/-- A settled queue whose table meets `P`, with unused lease ids. -/
structure Standing (P : LeaseTable → Prop) (T : LeaseTable) (s : Store) : Prop where
  settled : Settled T s
  holds : P T
  unused : UnusedLeaseIds T

variable {P : LeaseTable → Prop} {T : LeaseTable} {s t : Store} {v : Supply}
  {lease : Lease} {transition : LeaseCapacityTransition} {original target : RelayJob}

omit [Platform] in
theorem UnusedLeaseIds.remove (h : UnusedLeaseIds T) (ids : List DurableRecordId) :
    UnusedLeaseIds (T.remove ids) := by
  intro n id hid
  rcases hread : (T.remove ids).read id with _ | e
  · rfl
  · have hnone := h n id hid
    rw [(LeaseTable.read_remove_some hread).2] at hnone
    cases hnone

omit [Platform] [Entropy] in
/-- The table with the new lease is backed by its job. -/
theorem Acquisition.backed_put (hA : Acquisition T lease original target transition)
    (hT : T.Backed s)
    (hcur : s.read (.job original.jobId) = some original ∨ s.read (.job original.jobId) = some target) :
    (T.put (.of lease original)).Backed s := by
  refine ⟨hT.named.put _, fun id e he => ?_⟩
  by_cases hid : id = (LiveLease.of lease original).lease.leaseId
  · subst hid
    rw [LeaseTable.read_put_self] at he
    cases he
    rw [← hA.jobId] at hcur
    rcases hcur with hcur | hcur
    · exact ⟨original, hcur, LiveLease.of_isOf lease original⟩
    · exact ⟨target, hcur, hA.target_isOf⟩
  · rw [LeaseTable.read_put_ne hid] at he
    exact hT.job id e he

omit [Entropy] in
/-- An acquisition on its way keeps the ledger. -/
theorem Acquiring.ledger (hA : Acquisition T lease original target transition) (hP : P T)
    (hP' : P (T.put (.of lease original))) (hbooks : Books T s)
    (halone : Alone (.leaseAcquire lease.leaseId) s)
    (hs : Tearing (acquireIntent lease original target transition) transition T (T.put (.of lease original)) s s)
    (hcur : s.read (.job original.jobId) = some original) (hkeeps : KeepsLeases T target)
    (h : Acquiring T lease original target transition s t) : Ledger P t := by
  have hj := hA.target_jobId
  have hledger : ∀ p, jobWriteFile target.jobId p →
      ¬ ledgerFile (acquireIntent lease original target transition).key p :=
    fun p hp => hp.not_ledgerFile rfl
  rcases h with h | ⟨hu, h⟩
  · rcases h with rfl | h
    · exact .torn (I := acquireIntent lease original target transition) hbooks halone
        (.acquire hA hs (.inl hcur) hP hP')
    · refine .torn (I := acquireIntent lease original target transition)
        (hbooks.writing hkeeps h) (halone.jobWrite h.agree)
        (.acquire hA (hs.rebase h.agree hledger) ?_ hP hP')
      rw [← hj]
      rcases h.canonical with ⟨hr, -⟩ | ⟨hr, -⟩
      · rw [hr, hj]
        exact .inl hcur
      · exact .inr hr
  · have halone' : Alone (acquireIntent lease original target transition).key _ :=
      halone.jobWrite hu.agree
    refine .torn ((hbooks.written hkeeps hu).tearing rfl h) (halone'.tearing h)
      (.acquire hA h.here (.inr ?_) hP hP')
    rw [h.agree _ (ledgerFile.not_job rfl), ← hj, hu.canonical]

namespace Standing

variable {ttlSeconds : Int} {job : RelayJob} {A : RelayJob → RelayJob → Prop}

omit [Platform] in
theorem ledger (h : Standing P T s) : Ledger P s :=
  .rest h.settled.books h.settled.noCapacity h.settled.atRest h.holds

omit [Platform] in
theorem ofQuiet (h : Standing P T s) (ht : Quiet s t) : Standing P T t :=
  ⟨h.settled.ofQuiet ht, h.holds, h.unused⟩

/-- The replay leads from a ledger to a standing queue. -/
theorem wp_reconcile (h : Ledger P s) (hfresh : FreshLeaseIds s) :
    wp reconcileTransitionIntents (Ledger P) (fun _ t _ => (∃ T, Standing P T t) ∧ NoNew s t)
      (fun _ t _ => Ledger P t) s v := by
  refine wp_imp h.wp_reconcile fun _ t w ht => ?_
  obtain ⟨⟨U, hsettled, hP⟩, hnew⟩ := ht
  refine ⟨⟨U, hsettled, hP, fun n id hid => ?_⟩, hnew⟩
  have hnone := hnew.leases id (hfresh n id hid)
  rw [hsettled.read_lease] at hnone
  exact Option.map_eq_none_iff.1 hnone

omit [Platform] in
/-- Deleting a lease removes it from the table and leaves every job as it was; each stop leaves a
recoverable ledger. -/
theorem wp_deleteLease {e : LiveLease} {job : Option RelayJob} (hP : Hereditary P)
    (h : Standing P T s) (hlive : T.read e.lease.leaseId = some e)
    (hjob : ∀ found ∈ job, s.read (.job e.lease.jobId) = some found) :
    wp (deleteLease e.lease job) (Ledger P)
      (fun _ t _ => Standing P (T.remove [e.lease.leaseId]) t ∧
        ∀ id, t.read (.job id) = s.read (.job id)) (fun _ t _ => Ledger P t) s v := by
  have hbooks := h.settled.books
  obtain ⟨found, hfound, -⟩ := hbooks.backed.job _ e hlive
  have hcl := (hbooks.backed.job_of hbooks.jobs hlive hfound).2.1
  have hP' := hP T [e.lease.leaseId] h.holds
  have hend : ∀ t, Moved (.leaseDelete e.lease.leaseId) (T.remove [e.lease.leaseId]) s t →
      Standing P (T.remove [e.lease.leaseId]) t := fun t ht =>
    ⟨ht.settled (hbooks.table (hbooks.backed.remove _)) rfl fun k _ => h.settled.quiet k, hP',
      h.unused.remove _⟩
  refine ClioQueue.wp_deleteLease hbooks.jobs hbooks.backed h.settled.atRest hlive hjob
    (fun transition t hbtw ht => ?_) (fun t ht => (hend t ht).ledger) fun t w ht =>
      ⟨hend t ht, fun id => ht.agree _ (ledgerFile.not_job rfl)⟩
  exact .torn (hbooks.tearing rfl ht) ((h.settled.alone _).tearing ht)
    (.delete hlive hcl hbtw ht.here h.holds hP')

/-- Recovering expired leases removes exactly these from the table once the call returns, and leaves
a recoverable ledger wherever it stops. -/
theorem wp_recoverExpiredLeases {leases : List Lease} {maxAttempts : Int} (hP : Hereditary P)
    (h : Standing P T s) (hdue : RecoveryDue T s job leases) :
    wp (recoverExpiredLeases job leases maxAttempts) (Ledger P)
      (fun _ t _ => Standing P (T.remove (leases.map Lease.leaseId)) t)
      (fun _ t _ => Ledger P t) s v := by
  have hbooks := h.settled.books
  have hP' := hP T (leases.map Lease.leaseId) h.holds
  have hcur : ∀ target event transition,
      (recoveryStart job target leases event transition s).read (.job job.jobId) = some job :=
    fun target event transition => (read_write_ne _).trans hdue.canonical
  have hready : ∀ target event transition,
      RecoveryReady job leases (recoveryStart job target leases event transition s) :=
    fun target event transition => h.settled.atRest.recoveryReady hbooks.backed.named hdue.live
      fun p hp => read_write_ne _ (by rintro rfl; exact hp)
  have hway : ∀ target event transition t,
      RecoveryDecided T s job leases maxAttempts target event transition →
        Recovering T job target leases event transition
          (recoveryStart job target leases event transition s) t → Ledger P t :=
    fun target event transition t hR ht =>
      ht.ledger hR.toRecovery h.holds hP' (h.settled.booksWritten rfl) (h.settled.aloneWritten _)
        hR.begun.here (hready target event transition) (.inl (hcur target event transition))
  have hend : ∀ target event transition t,
      RecoveryDecided T s job leases maxAttempts target event transition →
        Recovered T job target leases event transition
          (recoveryStart job target leases event transition s) t →
            Standing P (T.remove (leases.map Lease.leaseId)) t := by
    intro target event transition t hR ht
    have hsettles := ht.settles (P := (· = T.remove (leases.map Lease.leaseId))) hR.toRecovery rfl
      (h.settled.booksWritten rfl) (h.settled.aloneWritten _) hR.begun.here
      (.inl (hcur target event transition))
    obtain ⟨U, hsettled, rfl⟩ := hsettles.settled (h.settled.quietWritten _)
    exact ⟨hsettled, hP', h.unused.remove _⟩
  exact ClioQueue.wp_recoverExpiredLeases hbooks.jobs hbooks.backed h.settled.atRest hdue.canonical
    hdue.live hway (fun target event transition t hR ht => (hend _ _ _ t hR ht).ledger)
    (fun target event transition t w hR ht => hend _ _ _ t hR ht) (fun _ _ => h.ledger)
    (fun target event transition err t w hR _ ht => hway _ _ _ t hR (.job ht))
    fun target event transition err u t w hR _ hu ht => hway _ _ _ t hR (.event hu ht)

/-- An acquisition of a queued job, when `P` holds of the table with the new lease. -/
theorem wp_leaseJob {endpointId : DurableRecordId} (h : Standing P T s) (hqueued : QueuedJob s job)
    (hP : ∀ lease target transition, AcquisitionBy T s endpointId lease job target transition → P (T.put (.of lease job))) :
    Leaves (Ledger P) (leaseJob job endpointId ttlSeconds (Multiset.card T.scopes)) s v := by
  have hbooks := h.settled.books
  have hcl := hbooks.jobs.cluster _ _ hqueued.canonical
  have hstart : ∀ lease target transition,
      Books T (acquireStart lease job target transition s) := fun lease target transition =>
    h.settled.booksWritten (I := acquireIntent lease job target transition) rfl
  have halone : ∀ lease target transition,
      Alone (.leaseAcquire lease.leaseId) (acquireStart lease job target transition s) :=
    fun lease target transition => h.settled.aloneWritten (acquireIntent lease job target transition)
  have hcanon : ∀ lease target transition,
      (acquireStart lease job target transition s).read (.job job.jobId) = some job :=
    fun lease target transition => (read_write_ne _).trans hqueued.canonical
  have hkeeps : ∀ lease target transition, AcquisitionBy T s endpointId lease job target transition →
      KeepsLeases T target := by
    intro lease target transition hA
    obtain ⟨hc, hk, hs⟩ := hA.target_isOf
    exact hbooks.backed.keepsLeases (by rw [hA.target_jobId]; exact hqueued.canonical) hc hk hs
  have hway : ∀ lease target transition t, AcquisitionBy T s endpointId lease job target transition →
      Acquiring T lease job target transition (acquireStart lease job target transition s) t →
        Ledger P t := by
    intro lease target transition t hA ht
    exact ht.ledger hA.toAcquisition h.holds (hP lease target transition hA)
      (hstart lease target transition) (halone lease target transition) hA.begun.here
      (hcanon lease target transition) (hkeeps lease target transition hA)
  have hend : ∀ lease target transition u t,
      AcquisitionBy T s endpointId lease job target transition →
        Acquired T lease job target (acquireStart lease job target transition s) u → Quiet u t →
          Ledger P t := by
    intro lease target transition u t hA hu ht
    obtain ⟨x, hx, hmoved⟩ := hu
    have hbooks' := (hstart lease target transition).written (hkeeps lease target transition hA) hx
    have hread : x.read (.job job.jobId) = some target := by
      rw [← hA.target_jobId]
      exact hx.canonical
    have hput := hA.backed_put hbooks'.backed (.inr hread)
    have hsettled := hmoved.settled (hbooks'.table hput) rfl fun k hk => ?_
    · have hquiet := hsettled.ofQuiet ht
      exact .rest hquiet.books hquiet.noCapacity hquiet.atRest (hP lease target transition hA)
    · by_cases hsync : k = .jobSync target.jobId
      · rw [hsync, hx.intent]
      · rw [hx.agree _ (jobWriteFile.not_intent hsync)]
        exact h.settled.quietWritten (acquireIntent lease job target transition) k hk
  exact ClioQueue.wp_leaseJob h.settled.atRest hqueued.state hcl rfl h.unused hway
    (fun lease target transition u t hA hu _ ht => hend lease target transition u t hA hu ht)
    (fun lease target transition u t w hA hu _ ht => hend lease target transition u t hA hu ht)
    (fun _ _ => h.ledger)
    (fun lease target transition err t w hA _ ht => hway lease target transition t hA (.job ht))
    (fun lease target transition err u t w hA _ hu ht =>
      hway lease target transition t hA (.lease hu ht))
    fun lease target transition err u t w hA hu _ ht => hend lease target transition u t hA hu ht

/-- Renewing a lease replaces its entry in the table, wherever the call stops. -/
theorem wp_renewCanonicalLease {leaseId : DurableRecordId} (h : Standing P T s)
    (hP : ∀ old e job, Renewal T s leaseId old e job → P (T.put e)) :
    Leaves (Ledger P) (renewCanonicalLease leaseId ttlSeconds) s v := by
  have hbooks := h.settled.books
  have hway : ∀ (old e : LiveLease) job transition t, Renewal T s leaseId old e job →
      transition.Between T (T.put e) →
        Tearing (.leaseSync e.lease old.lease job transition) transition T (T.put e) s t →
          Ledger P t := fun old e job transition t hN hbtw ht =>
    .torn (hbooks.tearing rfl ht) ((h.settled.alone _).tearing ht)
      (.sync hN.live hN.renews hN.jobId hN.isOf hN.cluster hbtw ht.here h.holds (hP old e job hN))
  have hend : ∀ (old e : LiveLease) job t, Renewal T s leaseId old e job →
      Moved (.leaseSync e.lease.leaseId) (T.put e) s t → Ledger P t := by
    intro old e job t hN ht
    have hsettled := ht.settled (hbooks.table (hbooks.backed.renew hN.live hN.renews)) rfl
      fun k _ => h.settled.quiet k
    exact .rest hsettled.books hsettled.noCapacity hsettled.atRest (hP old e job hN)
  exact ClioQueue.wp_renewCanonicalLease hbooks.jobs hbooks.backed h.settled.atRest hway hend
    (fun _ => h.ledger) (fun old e job t w hN ht => hend old e job t hN ht) (fun _ _ => h.ledger)
    fun old e job transition err t w hN hbtw ht => hway old e job transition t hN hbtw ht

omit [Platform] in
/-- The record of a job that may be written keeps its leases. -/
theorem keepsLeases (h : Standing P T s) (hjob : JobRewrite A s job) : KeepsLeases T job := by
  have hbacked := h.settled.books.backed
  cases hjob with
  | fresh hnew =>
    intro id e he hid
    obtain ⟨_, hfound, -⟩ := hbacked.job id e he
    rw [hid, hnew] at hfound
    cases hfound
  | same hread => exact hbacked.keepsLeases hread rfl rfl rfl
  | change hread hcl hkind hspec => exact hbacked.keepsLeases hread hcl hkind hspec

/-- Writing a job that is new, unchanged or changed as allowed keeps the table, and leaves a
recoverable ledger wherever it stops. -/
theorem wp_writeJob (h : Standing P T s) (hjob : JobRewrite A s job) :
    wp (writeJob job) (Ledger P) (fun _ t _ => Standing P T t) (fun _ t _ => Ledger P t) s v := by
  have hbooks := h.settled.books
  have hkeeps := h.keepsLeases hjob
  have hrest : ∀ t, Agree (jobWriteFile job.jobId) s t → AtRest T t := by
    intro t ht
    refine h.settled.atRest.frame ht fun p hp => ?_
    have hledger : ¬ ledgerFile .leaseIndexRepair p := hp.not_ledgerFile rfl
    exact ⟨fun hl => hledger (.inl hl), fun hc => hledger (.inr (.inl hc))⟩
  have hquiet : ∀ t, Agree (jobWriteFile job.jobId) s t → NoCapacityIntent t := by
    intro t ht k hk
    rw [ht _ (jobWriteFile.not_intent _), h.settled.quiet]
    rintro rfl
    cases hk
  have hend : ∀ t, JobWritten job s t → Standing P T t := by
    intro t ht
    refine ⟨⟨hbooks.written hkeeps ht, hrest t ht.agree, fun k => ?_⟩, h.holds, h.unused⟩
    by_cases hk : k = .jobSync job.jobId
    · rw [hk, ht.intent]
    · rw [ht.agree _ (jobWriteFile.not_intent hk), h.settled.quiet]
  have hway : ∀ t, JobWriting job s t → Ledger P t := fun t ht =>
    .rest (hbooks.writing hkeeps ht) (hquiet t ht.agree) (hrest t ht.agree) h.holds
  refine ClioQueue.wp_writeJob hway (fun t ht => (hend t ht).ledger) (fun t w ht => hend t ht)
    fun err t w _ ht => ?_
  rcases ht with rfl | ht
  · exact h.ledger
  · exact hway t ht

theorem wp_repairActiveJobIndex (h : Standing P T s) :
    wp repairActiveJobIndex (Ledger P)
      (fun _ t _ => Standing P T t ∧ Agree copyFile s t) (fun _ t _ => Ledger P t) s v := by
  have hend : ∀ t, JobsOk t → Agree copyFile s t → Standing P T t := by
    intro t hjobs ht
    refine ⟨⟨⟨hjobs, fun k I hread => ?_, h.settled.books.backed.frame fun _ => ht _ id⟩,
      h.settled.atRest.frame ht fun p hp => ?_, fun k => ?_⟩, h.holds, h.unused⟩
    · rw [ht _ id, h.settled.quiet] at hread
      cases hread
    · cases p <;> first | exact hp.elim | exact ⟨id, id⟩
    · rw [ht _ id, h.settled.quiet]
  exact ClioQueue.wp_repairActiveJobIndex h.settled.books.jobs
    (fun t hjobs ht => (hend t hjobs ht).ledger) (fun t w hjobs ht => ⟨hend t hjobs ht, ht⟩)
    fun err t w hjobs ht => (hend t hjobs ht).ledger

theorem wp_repairLeaseIndexes {limit : Nat} (h : Standing P T s) :
    Leaves (Ledger P) (repairLeaseIndexes limit) s v := by
  have hbooks := h.settled.books
  have hway : ∀ target t, target.Exact T → Repairing limit target true T s t → Ledger P t :=
    fun target t htgt ht =>
      .torn (I := .leaseIndexRepair limit target true) (hbooks.repairing ht)
        ((h.settled.alone _).repair ht.agree)
        (.repair htgt ⟨Agree.refl _ t, ht.intent, ht.moving⟩ h.holds)
  have hend : ∀ t, Agree repairFile s t → t.read (.intent .leaseIndexRepair) = none →
      AtRest T t → Ledger P t := by
    intro t ht hnone hrest
    have hsettled := h.settled.repaired ht hnone hrest
    exact .rest hsettled.books hsettled.noCapacity hsettled.atRest h.holds
  exact ClioQueue.wp_repairLeaseIndexes hbooks.jobs hbooks.backed h.settled.atRest hway hend
    (fun n t w ht hnone hrest => hend t ht hnone hrest) (fun _ _ => h.ledger)
    (fun target err t w htgt ht => hway target t htgt ht)
    fun err t w ht => hend t ht.agree ht.intent ht.atRest

/-- **The ledger is kept** by every operation, for a property of tables that removals keep and that
the admissible acquisitions of the call keep. -/
theorem jobUpkeep {limits : List (JobKind × Int)} {lane : Option McpLane} (hP : Hereditary P)
    (hlease : ∀ {T s endpointId job lease target transition}, Standing P T s →
      Admissible T s endpointId limits lane job →
        AcquisitionBy T s endpointId lease job target transition → P (T.put (.of lease job))) :
    JobUpkeep (fun _ _ => True) (Standing P) (Ledger P) (Ledger P) limits lane where
  settled h := h.settled
  trail h := h.ledger
  ends h := h.ledger
  quiet h ht := h.ofQuiet ht
  replay h hfresh := wp_reconcile h hfresh
  delete _ h hlive hjob := wp_deleteLease hP h hlive hjob
  recover h hdue := wp_recoverExpiredLeases hP h hdue
  lease h hadm := wp_leaseJob h hadm.queued fun _ _ _ hA => hlease h hadm hA
  write h hjob := wp_writeJob h hjob
  refresh h := wp_repairActiveJobIndex h

end Standing

end

end ClioQueue
