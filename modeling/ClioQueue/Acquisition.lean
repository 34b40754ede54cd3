/-
# Acquiring a lease

`_lease_job_unlocked` from a queue at rest, and the replay of its intent from
wherever the acquisition, or an earlier replay, has stopped.  The acquisition
writes the leased job before the lease files; the replay puts the queued job back
before it removes them.
-/

import ClioQueue.LeaseAdmission
import ClioQueue.LeaseOperations
import ClioQueue.QuietWrites

namespace ClioQueue

open Durable Durable.Prog

/-- The intent of an acquisition. -/
def acquireIntent (lease : Lease) (original target : RelayJob)
    (transition : LeaseCapacityTransition) : TransitionIntent :=
  .leaseAcquire lease original target target.updatedAt transition

/-- The acquisition of a queued job under an unused lease id. -/
structure Acquisition (T : LeaseTable) (lease : Lease) (original target : RelayJob)
    (transition : LeaseCapacityTransition) : Prop where
  unused : T.read lease.leaseId = none
  queued : original.state = .queued
  cluster : original.cluster ≠ ""
  jobId : lease.jobId = original.jobId
  target : target = leasedJob original lease.endpointId target.updatedAt
  between : transition.Between T (T.put (.of lease original))
  rollback : transition.rollback.isSome

section

variable {T : LeaseTable} {lease : Lease} {original target : RelayJob}
  {transition : LeaseCapacityTransition} {s₀ s t u : Store} {v : Supply}
  {C : Store → Prop} {Q : Post Unit} {E : Post RelayError}

namespace Acquisition

variable (h : Acquisition T lease original target transition)

include h

theorem target_jobId : target.jobId = original.jobId := by
  rw [h.target]
  rfl

theorem target_isOf : (LiveLease.of lease original).IsOf target := by
  rw [h.target]
  exact ⟨rfl, rfl, rfl⟩

theorem target_state : target.state = .leased := by
  rw [h.target]
  rfl

theorem target_leasedBy : target.leasedBy = some lease.endpointId.value := by
  rw [h.target]
  rfl

theorem valid : acquireIntentValid lease original target target.updatedAt = true := by
  have hcl : target.cluster = original.cluster := h.target_isOf.1
  have hkind : target.kind = original.kind := h.target_isOf.2.1
  simp [acquireIntentValid, h.jobId, h.target_jobId, hcl, hkind, h.target_state, h.target_leasedBy]

theorem targetIsCurrent_target : targetIsCurrent lease target.updatedAt (some target) = true := by
  simp [targetIsCurrent, h.target_state, h.target_leasedBy]

theorem targetIsCurrent_original :
    targetIsCurrent lease target.updatedAt (some original) = false := by
  simp [targetIsCurrent, h.queued]

theorem preserve_eq_false {current : RelayJob} (hc : current = original ∨ current = target) :
    preserveAcquisition lease target.updatedAt (some current) = false := by
  rcases hc with rfl | rfl
  · simp [preserveAcquisition, h.queued, JobState.held]
  · simp [preserveAcquisition, h.targetIsCurrent_target]

/-- On the way the lease has no manifest or its own. -/
theorem manifest
    (ht : Files.Moving leaseFile T.file (T.put (.of lease original)).file (fun _ => False) t) :
    ∀ identity, t.read (LiveLease.of lease original).identity.indexPath = some identity →
      identity = (LiveLease.of lease original).identity := by
  have hp : (LiveLease.of lease original).identity.indexPath ∈ (LiveLease.of lease original).files :=
    .tail _ (.tail _ (.head _))
  intro identity hread
  rcases ht.between (LiveLease.of lease original).identity.indexPath trivial with hr | hr
  · have hnone : T.file (LiveLease.of lease original).identity.indexPath = none := by
      rw [LeaseTable.file_of_key (LiveLease.leaseKey_files hp)]
      exact (congrArg (Option.bind · _) h.unused).trans rfl
    rw [hread, hnone] at hr
    cases hr
  · rw [hread, LeaseTable.file_put_files hp] at hr
    exact Option.some.inj hr

end Acquisition

/-! ### Forward -/

variable [Platform]

/-- Where an acquisition from `s`, whose intent has just been written, can be stopped: before
its job is written, or on the way to its lease files. -/
inductive Acquiring (T : LeaseTable) (lease : Lease) (original target : RelayJob)
    (transition : LeaseCapacityTransition) (s : Store) : Store → Prop
  | job {t : Store} (h : t = s ∨ JobWriting target s t) :
      Acquiring T lease original target transition s t
  | lease {u t : Store} (hu : JobWritten target s u)
      (h : Tearing (acquireIntent lease original target transition) transition T
        (T.put (.of lease original)) u t) : Acquiring T lease original target transition s t

/-- An acquisition is complete. -/
def Acquired (T : LeaseTable) (lease : Lease) (original target : RelayJob) (s t : Store) : Prop :=
  ∃ u, JobWritten target s u ∧ Moved (.leaseAcquire lease.leaseId) (T.put (.of lease original)) u t

variable [Entropy]

/-- **An acquisition whose intent is written.** -/
theorem wp_acquireLease (hA : Acquisition T lease original target transition)
    (h : Tearing (acquireIntent lease original target transition) transition T
      (T.put (.of lease original)) s₀ s)
    (hC : ∀ t, Acquiring T lease original target transition s t → C t)
    (hC' : ∀ t, Acquired T lease original target s t → C t)
    (hQ : ∀ t w, Acquired T lease original target s t → Q () t w)
    (hE : ∀ err t w, ¬ Writable s target → t = s ∨ JobWriting target s t → E err t w)
    (hE' : Platform.leaseIndexFits (LiveLease.of lease original).identity = false →
      ∀ err u t w, JobWritten target s u →
        Tearing (acquireIntent lease original target transition) transition T
          (T.put (.of lease original)) u t → E err t w) :
    wp (acquireLease lease target transition) C Q E s v := by
  have hkey : (acquireIntent lease original target transition).key.carriesCapacity = true := rfl
  have hledger : ∀ p, jobWriteFile target.jobId p →
      ¬ ledgerFile (acquireIntent lease original target transition).key p :=
    fun p hp => hp.not_ledgerFile hkey
  unfold acquireLease
  rw [wp_bind]
  refine wp_writeJob (fun t ht => hC t (.job (.inr ht)))
    (fun u hu => hC u (.lease hu (h.rebase hu.agree hledger))) (fun u w hu => ?_)
    hE
  have hs := h.rebase hu.agree hledger
  have hg : ∀ p ∈ (LiveLease.of lease original).files,
      (T.put (.of lease original)).file p = (LiveLease.of lease original).content p :=
    fun p hp => LeaseTable.file_put_files hp
  have hcopy : (LiveLease.of lease original).content (.leaseByJob lease.jobId lease.leaseId) =
      some lease := if_pos rfl
  have m₁ := (MovedFrom.start hs.moving).write (hg (.lease lease.leaseId) (.head _)) trivial
  have m₂ := m₁.write ((hg _ (.tail _ (.head _))).trans hcopy) trivial
  have hjob : lease.jobId = target.jobId := hA.jobId.trans hA.target_jobId.symm
  have hman : ManifestOf lease.leaseId
      ((u.write (.lease lease.leaseId) lease).write (.leaseByJob lease.jobId lease.leaseId)
        lease) := by
    intro identity hread
    obtain rfl := hA.manifest m₂.moving.forget identity hread
    exact ⟨rfl, hA.cluster⟩
  simp only [wp_bind, wp_put]
  refine ⟨hC _ (.lease hu (hs.moved m₁)), hC _ (.lease hu (hs.moved m₂)), ?_⟩
  refine wp_syncLeaseOperationalIndexes_new (e := .of lease original) hjob hA.target_isOf.1
    hA.target_isOf.2.1 m₂ (fun p hp => hg p (.tail _ (.tail _ hp))) hman
    (fun t ht => hC t (.lease hu (hs.moved ht))) (fun t ht => ?_)
    fun hfits err t ht => hE' hfits err u t _ hu (hs.moved ht)
  rw [← wp_bind]
  refine (hs.moved ht).wp_commit hA.between rfl hA.between.after ?_
    (fun t ht _ => hC t (.lease hu ht)) (fun t ht => hC' t ⟨u, hu, ht⟩)
    fun t w ht => hQ t w ⟨u, hu, ht⟩
  refine ht.moving.finish fun p _ hp => LeaseTable.file_put_eq hA.unused fun hp' => hp ?_
  rcases List.mem_cons.1 hp' with rfl | hp'
  · exact .inr (.inr (.inl rfl))
  · rcases List.mem_cons.1 hp' with rfl | hp'
    · exact .inr (.inl rfl)
    · exact .inl hp'

/-! ### Backward -/

/-- The job of an interrupted acquisition can be put back. -/
structure Restorable (s : Store) (original : RelayJob) : Prop where
  fits : Platform.jobFits original = true
  derivation : Derivation s original

/-- The job of an interrupted acquisition is the queued one again. -/
def Restored (original target : RelayJob) (s u : Store) : Prop :=
  (u = s ∧ s.read (.job original.jobId) = some original) ∨
    (s.read (.job original.jobId) = some target ∧ Platform.jobFits original = true ∧
      Derived original (s.write (.job original.jobId) original) u)

/-- Where the replay of an acquisition from `s` can be stopped: while it puts the job back, or
on the way from its lease files. -/
inductive Releasing (T : LeaseTable) (lease : Lease) (original target : RelayJob)
    (transition : LeaseCapacityTransition) (s : Store) : Store → Prop
  | job {t : Store} (hs : s.read (.job original.jobId) = some target)
      (h : Deriving original (s.write (.job original.jobId) original) t) :
      Releasing T lease original target transition s t
  | lease {u t : Store} (hu : Restored original target s u)
      (h : Tearing (acquireIntent lease original target transition) transition T
        (T.put (.of lease original)) u t) : Releasing T lease original target transition s t

/-- The acquisition has been undone. -/
def Released (T : LeaseTable) (lease : Lease) (original target : RelayJob) (s t : Store) : Prop :=
  ∃ u, Restored original target s u ∧ Moved (.leaseAcquire lease.leaseId) T u t

omit [Entropy] in
/-- Restoring a job whose acquisition is taken back writes the original and its copies; it fails
only if the original does not fit or cannot be derived. -/
theorem wp_restoreOriginalJob (hs : s.read (.job original.jobId) = some target)
    (hC : ∀ t, Deriving original (s.write (.job original.jobId) original) t → C t)
    (hQ : ∀ t w, Restored original target s t → Q () t w)
    (hE : ∀ err t w, ¬ Restorable s original →
      (t = s ∨ Deriving original (s.write (.job original.jobId) original) t) → E err t w) :
    wp (restoreOriginalJob original) C Q E s v := by
  unfold restoreOriginalJob
  refine wp_putWithin_then (fun hfits => ⟨hC _ (.refl _ _), ?_⟩)
    fun hfits => hE _ _ _ (fun h => ?_) (.inl rfl)
  · refine wp_syncJobDerived hC (fun t w ht => hQ t w (.inr ⟨hs, hfits, ht⟩))
      fun err t w hnot ht => hE err t w (fun h => hnot ⟨?_, fun _ => hfits⟩) (.inr ht)
    refine h.derivation.frame (Files.agree_write (A := (· = Path.job original.jobId)) rfl s original)
      (fun p hp => ?_) fun _ _ _ => by simp
    rw [hp]
    exact derivedFile.not_job
  · rw [h.fits] at hfits
    cases hfits

omit [Entropy] in
/-- **The replay of an acquisition**, from wherever the acquisition or an earlier replay stopped. -/
theorem wp_reconcileLeaseAcquireIntent (hA : Acquisition T lease original target transition)
    (hjobs : JobsOk s)
    (h : Tearing (acquireIntent lease original target transition) transition T
      (T.put (.of lease original)) s₀ s)
    (hcur : s.read (.job original.jobId) = some original ∨
      s.read (.job original.jobId) = some target)
    (hC : ∀ t, Releasing T lease original target transition s t → C t)
    (hC' : ∀ t, Released T lease original target s t → C t)
    (hQ : ∀ t w, Released T lease original target s t → Q () t w)
    (hE : ∀ err t w, s.read (.job original.jobId) = some target → ¬ Restorable s original →
      (t = s ∨ Deriving original (s.write (.job original.jobId) original) t) → E err t w) :
    wp (reconcileLeaseAcquireIntent lease original target target.updatedAt transition)
      C Q E s v := by
  obtain ⟨rollback, hroll⟩ := Option.isSome_iff_exists.1 hA.rollback
  have hderived : ∀ p, (p = .job original.jobId ∨ derivedFile original.jobId p) →
      ¬ ledgerFile (acquireIntent lease original target transition).key p := fun p hp =>
    jobWriteFile.not_ledgerFile rfl (hp.elim (fun hp => .inr (.inr (.inl hp)))
      fun hp => .inr (.inl hp))
  -- Removing the lease files once the job is back.
  have hrest : ∀ u w, Restored original target s u →
      wp (settleAcquiredLease lease (LiveLease.of lease original).identity none >>= fun _ =>
        applyLeaseCapacityTransition transition .rollback
          s!"lease acquisition recovery {lease.leaseId}" >>= fun _ =>
            unlink (.intent (.leaseAcquire lease.leaseId))) C Q E u w := by
    intro u w hu
    have hs : Tearing (acquireIntent lease original target transition) transition T
        (T.put (.of lease original)) u u := by
      rcases hu with ⟨rfl, -⟩ | ⟨-, -, hu⟩
      · exact h.rebase (Files.Agree.refl (fun _ => False) u) fun _ => False.elim
      · refine h.rebase (A := fun p => p = .job original.jobId ∨ derivedFile original.jobId p) ?_
          hderived
        exact ((Files.agree_write (A := (· = Path.job original.jobId)) rfl s original).mono
          fun _ => .inl).trans (hu.agree.mono fun _ => .inr)
    have hnone : ∀ p ∈ (LiveLease.of lease original).files, T.file p = none := fun p hp => by
      rw [LeaseTable.file_of_key (LiveLease.leaseKey_files hp)]
      exact (congrArg (Option.bind · _) hA.unused).trans rfl
    rw [wp_bind]
    refine wp_removeLeaseFiles (e := .of lease original) (.start hs.moving.turn) hnone hA.cluster
      (hA.manifest hs.moving) (fun t ht => hC t (.lease hu (hs.movedBack ht))) fun t ht => ?_
    refine (hs.movedBack ht).wp_commit hA.between hroll (hA.between.rollback _ hroll) ?_
      (fun t ht _ => hC t (.lease hu ht)) (fun t ht => hC' t ⟨u, hu, ht⟩)
      fun t w ht => hQ t w ⟨u, hu, ht⟩
    exact ht.moving.finish fun p _ hp =>
      (LeaseTable.file_put_eq hA.unused fun hp' => hp (.inl hp')).symm
  unfold reconcileLeaseAcquireIntent
  rw [wp_bind, wp_require, hA.valid]
  refine ⟨fun _ => ?_, nofun⟩
  rw [wp_bind]
  refine wp_readJob hjobs ?_
  rw [hA.jobId]
  have hident : leaseIndexIdentity lease original = .ok (LiveLease.of lease original).identity :=
    leaseIndexIdentity_live (e := .of lease original) hA.jobId rfl rfl
  rcases hcur with hcur | hcur
  · simp only [hcur, hA.targetIsCurrent_original, hA.preserve_eq_false (.inl rfl), hident,
      Bool.false_eq_true, if_false, wp_bind, wp_pure, wp_ofExcept, Except.ok.injEq,
      reduceCtorEq, false_imp_iff, implies_true, and_true, forall_eq']
    simp only [← wp_bind]
    exact hrest s v (.inl ⟨rfl, hcur⟩)
  · simp only [hcur, hA.targetIsCurrent_target, hA.preserve_eq_false (.inr rfl), hident,
      Bool.false_eq_true, if_false, if_true, wp_bind, wp_ofExcept, Except.ok.injEq,
      reduceCtorEq, false_imp_iff, implies_true, and_true, forall_eq']
    refine wp_restoreOriginalJob hcur (fun t ht => hC t (.job hcur ht)) (fun u w hu => ?_)
      fun err t w hnot ht => hE err t w hcur hnot ht
    simp only [← wp_bind]
    exact hrest u w hu

/-! ### From rest -/

/-- The store in which the intent of an acquisition has been written. -/
def acquireStart (lease : Lease) (original target : RelayJob)
    (transition : LeaseCapacityTransition) (s : Store) : Store :=
  s.write (.intent (.leaseAcquire lease.leaseId)) (acquireIntent lease original target transition)

/-- What `newId` makes of a random identifier. -/
def idOf (tag : String) (uuid : Uuid) : Except RelayError DurableRecordId :=
  validateDurableRecordId s!"{tag}_{uuid.hex}"

/-- No random identifier names a live lease. -/
def UnusedLeaseIds (T : LeaseTable) : Prop :=
  ∀ n id, idOf "lease" (Entropy.uuids n) = .ok id → T.read id = none

/-- An acquisition by an endpoint, begun in the queue `s`. -/
structure AcquisitionBy (T : LeaseTable) (s : Store) (endpointId : DurableRecordId) (lease : Lease)
    (original leased : RelayJob) (transition : LeaseCapacityTransition) : Prop
    extends Acquisition T lease original leased transition where
  endpoint : lease.endpointId = endpointId
  begun : Tearing (acquireIntent lease original leased transition) transition T
    (T.put (.of lease original)) s (acquireStart lease original leased transition s)

/-- **An acquisition from rest**: refused, stopped on the way, or complete up to its event. -/
theorem wp_leaseJob {Q : Post Lease} {job : RelayJob}
    {endpointId : DurableRecordId} {ttlSeconds : Int} {globalTotal : Nat} (hrest : AtRest T s)
    (hqueued : job.state = .queued) (hcl : job.cluster ≠ "")
    (htot : globalTotal = Multiset.card T.scopes) (hunused : UnusedLeaseIds T)
    (hC : ∀ lease target transition t, AcquisitionBy T s endpointId lease job target transition →
      Acquiring T lease job target transition (acquireStart lease job target transition s) t → C t)
    (hC' : ∀ lease target transition u t, AcquisitionBy T s endpointId lease job target transition →
      Acquired T lease job target (acquireStart lease job target transition s) u →
        Files.Agree (eventFile job.jobId) u t → Quiet u t → C t)
    (hQ : ∀ lease target transition u t w, AcquisitionBy T s endpointId lease job target transition →
      Acquired T lease job target (acquireStart lease job target transition s) u →
        Files.Agree (eventFile job.jobId) u t → Quiet u t → Q lease t w)
    (hE : ∀ err w, E err s w)
    (hE₁ : ∀ lease target transition err t w, AcquisitionBy T s endpointId lease job target transition →
      ¬ Writable (acquireStart lease job target transition s) target → (t = acquireStart lease job target transition s ∨
        JobWriting target (acquireStart lease job target transition s) t) → E err t w)
    (hE₂ : ∀ lease target transition err u t w, AcquisitionBy T s endpointId lease job target transition →
      Platform.leaseIndexFits (LiveLease.of lease job).identity = false →
        JobWritten target (acquireStart lease job target transition s) u →
          Tearing (acquireIntent lease job target transition) transition T
            (T.put (.of lease job)) u t → E err t w)
    (hE₃ : ∀ lease target transition err u t w, AcquisitionBy T s endpointId lease job target transition →
      Acquired T lease job target (acquireStart lease job target transition s) u →
        Files.Agree (eventFile job.jobId) u t → Quiet u t → E err t w) :
    wp (leaseJob job endpointId ttlSeconds globalTotal) C Q E s v := by
  obtain ⟨pair, hholds, hexact⟩ := hrest.pair
  unfold leaseJob
  refine wp_require_then (fun _ => ?_) fun _ => hE _ _
  refine wp_require_then (fun hbd => ?_) fun _ => hE _ _
  have hbd : Multiset.card T.scopes < maxLiveLeaseRecords := by
    rw [← htot]
    exact of_decide_eq_true hbd
  simp only [Lease.new, newId, wp_bind, wp_utcNow, wp_uuid4, wp_ofExcept, wp_pure]
  refine ⟨fun expiresAt _ => ⟨fun leaseId hid => ?_, fun err _ => hE err _⟩, fun err _ => hE err _⟩
  generalize hlease : Lease.mk leaseId job.jobId endpointId (Entropy.clock v.ticks) expiresAt = lease
  have hunused' : T.read lease.leaseId = none := by
    rw [← hlease]
    exact hunused _ _ hid
  have hscopes : (T.put (.of lease job)).scopes = (leaseClusterDigest job.cluster, job.kind) ::ₘ
      T.scopes := LeaseTable.scopes_put hunused'
  have hdeltas : applyScopeDeltas T.scopes [⟨job.cluster, job.kind, 1⟩] =
      .ok (T.put (.of lease job)).scopes := by rw [hscopes, applyScopeDeltas_add]
  refine wp_prepareLeaseCapacityTransition hholds hexact hdeltas (by rw [hscopes, Multiset.card_cons]; exact hbd)
    fun transition w hbtw hbefore hroll => ?_
  generalize htgt : leasedJob job endpointId _ = target
  have hbegin : Tearing (acquireIntent lease job target transition) transition T
      (T.put (.of lease job)) s (acquireStart lease job target transition s) :=
    Tearing.begin hrest.files hholds hbefore
  have hA : AcquisitionBy T s endpointId lease job target transition :=
    ⟨⟨hunused', hqueued, hcl, by rw [← hlease], by rw [← htgt, ← hlease]; rfl, hbtw,
      hroll⟩, by rw [← hlease], hbegin⟩
  simp only [writeTransitionIntent, TransitionIntent.key, wp_bind, wp_utcNow, wp_put]
  refine ⟨hC lease target transition _ hA (.job (.inl rfl)), ?_⟩
  refine wp_acquireLease hA.toAcquisition hbegin (fun t ht => hC lease target transition t hA ht)
    (fun t ht => hC' lease target transition t t hA ht (Files.Agree.refl _ t) (.refl t)) (fun u w hu => ?_)
    (fun err t w hnot ht => hE₁ lease target transition err t w hA hnot ht)
    fun hfits err u t w hu ht => hE₂ lease target transition err u t w hA hfits hu ht
  exact wp_appendEventUnlocked (fun t ht hq => hC' lease target transition u t hA hu ht hq)
    (fun _ t w ht hq => hQ lease target transition u t w hA hu ht hq)
    fun err t w ht hq => hE₃ lease target transition err u t w hA hu ht hq

end

end ClioQueue
