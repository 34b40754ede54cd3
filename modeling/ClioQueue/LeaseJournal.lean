/-
# The journal of the lease operations

`Ledger P` is the invariant of the queue under its lease operations, wherever a
process stops: the lease files and the capacity pair are those of a table at
rest, or exactly one intent that carries a capacity transition is pending and
the files are somewhere on the way it leads (`Torn`).  `P` is a further property of
the table that the queue settles on.

**Replay** (`Ledger.wp_reconcile`): the journal replay keeps the ledger wherever
it stops, and when it completes the queue is at rest with no intent pending.
-/

import ClioQueue.Acquisition
import ClioQueue.IndexRepair
import ClioQueue.StaleRecovery

namespace ClioQueue

open Durable Durable.Prog Durable.Files

/-! ### Jobs along a write -/

section

variable [Platform] {s t : Store} {job original target : RelayJob} {id jobId : DurableRecordId}

section

omit [Platform]

theorem jobWriteFile.not_job (h : id ≠ jobId) : ¬ jobWriteFile jobId (.job id) := by
  simp [jobWriteFile, cleanupReceipt, derivedFile, membershipFile, schedulerFile, jobCopy, h]

theorem jobWriteFile.not_lease : ¬ jobWriteFile jobId (.lease id) := by
  simp [jobWriteFile, cleanupReceipt, derivedFile, membershipFile, schedulerFile, jobCopy]

theorem jobWriteFile.not_jobQueued (h : id ≠ jobId) : ¬ jobWriteFile jobId (.jobQueued id) := by
  simp [jobWriteFile, cleanupReceipt, derivedFile, membershipFile, schedulerFile, jobCopy, h]

theorem jobWriteFile.not_intent {key : IntentKey} (h : key ≠ .jobSync jobId) :
    ¬ jobWriteFile jobId (.intent key) := by
  simp [jobWriteFile, cleanupReceipt, derivedFile, membershipFile, schedulerFile, jobCopy, h]

theorem JobsOk.change {A : Path → Prop} (h : JobsOk s) (hst : Agree A s t)
    (hA : ∀ id, id ≠ jobId → ¬ A (.job id) ∧ ¬ A (.jobQueued id) ∧ ¬ A (.intent (.jobSync id)))
    (hjob : ∀ found, t.read (.job jobId) = some found → found.jobId = jobId ∧ found.cluster ≠ "")
    (hqueued : ∀ copy, t.read (.jobQueued jobId) = some copy → t.read (.intent (.jobSync jobId)) = none → t.read (.job jobId) = some copy ∧ copy.state = .queued)
    (hcopied : (t.read (.jobQueued jobId)).isSome → (t.read (.job jobId)).isSome) : JobsOk t := by
  constructor
  · intro id found hfound
    by_cases hid : id = jobId
    · subst hid
      exact (hjob found hfound).1
    · rw [hst _ (hA id hid).1] at hfound
      exact h.named id found hfound
  · intro id found hfound
    by_cases hid : id = jobId
    · subst hid
      exact (hjob found hfound).2
    · rw [hst _ (hA id hid).1] at hfound
      exact h.cluster id found hfound
  · intro id copy hcopy hsync
    by_cases hid : id = jobId
    · subst hid
      exact hqueued copy hcopy hsync
    · rw [hst _ (hA id hid).2.1] at hcopy
      rw [hst _ (hA id hid).2.2] at hsync
      rw [hst _ (hA id hid).1]
      exact h.queued id copy hcopy hsync
  · intro id hcopy
    by_cases hid : id = jobId
    · subst hid
      exact hcopied hcopy
    · rw [hst _ (hA id hid).2.1] at hcopy
      rw [hst _ (hA id hid).1]
      exact h.copied id hcopy

end

/-- Writing a job, stopped anywhere, keeps the jobs in order. -/
theorem JobsOk.writing (h : JobsOk s) (ht : JobWriting job s t) : JobsOk t := by
  refine h.change ht.agree (fun id hid => ⟨jobWriteFile.not_job hid, jobWriteFile.not_jobQueued hid,
    jobWriteFile.not_intent (by simpa using hid)⟩) (fun found hfound => ?_)
    (fun copy hcopy hsync => ?_) fun hcopy => ?_
  · rcases ht.canonical with ⟨hjob, -⟩ | ⟨hjob, -⟩
    · rw [hjob] at hfound
      exact ⟨h.named _ _ hfound, h.cluster _ _ hfound⟩
    · rw [hjob] at hfound
      cases hfound
      exact ⟨rfl, ht.cluster⟩
  · rcases ht.canonical with ⟨hjob, hcopies⟩ | ⟨-, hpend⟩
    · rw [hcopies] at hcopy
      rw [hjob]
      refine h.queued _ _ hcopy ?_
      rcases ht.journal with hr | hr
      · rwa [hr] at hsync
      · rw [hr] at hsync
        cases hsync
    · rw [hsync] at hpend
      cases hpend
  · rcases ht.canonical with ⟨hjob, hcopies⟩ | ⟨hjob, -⟩
    · rw [hcopies] at hcopy
      rw [hjob]
      exact h.copied _ hcopy
    · rw [hjob]
      rfl

theorem JobsOk.written (h : JobsOk s) (ht : JobWritten job s t) : JobsOk t := by
  refine h.change ht.agree (fun id hid => ⟨jobWriteFile.not_job hid, jobWriteFile.not_jobQueued hid,
    jobWriteFile.not_intent (by simpa using hid)⟩) (fun found hfound => ?_)
    (fun copy hcopy _ => ?_) fun _ => by rw [ht.canonical]; rfl
  · rw [ht.canonical] at hfound
    cases hfound
    exact ⟨rfl, ht.writable.cluster⟩
  · rw [ht.queued] at hcopy
    split at hcopy
    · next hstate =>
        cases hcopy
        exact ⟨ht.canonical, hstate⟩
    · cases hcopy

omit [Platform] in
theorem derivedFile.others (h : id ≠ jobId) : ¬ derivedFile jobId (.jobQueued id) := by
  simp [derivedFile, membershipFile, schedulerFile, jobCopy, h]

/-- Deriving the copies and references of a stored job, stopped anywhere, keeps the jobs in
order. -/
theorem JobsOk.deriving (h : JobsOk s) (hjob : s.read (.job job.jobId) = some job)
    (ht : Deriving job s t) : JobsOk t := by
  have hjob' : t.read (.job job.jobId) = some job := by
    rw [ht.agree _ derivedFile.not_job, hjob]
  refine h.change ht.agree (fun id hid => ⟨derivedFile.not_job, derivedFile.others hid,
    derivedFile.not_intent⟩) (fun found hfound => ?_) (fun copy hcopy hsync => ?_)
    fun _ => by rw [hjob']; rfl
  · rw [ht.agree _ derivedFile.not_job] at hfound
    exact ⟨h.named _ _ hfound, h.cluster _ _ hfound⟩
  · rw [ht.agree _ derivedFile.not_intent] at hsync
    rw [hjob']
    rcases ht.queued with hr | hr | ⟨hstate, hr⟩
    · rw [hr] at hcopy
      obtain ⟨hfound, hstate⟩ := h.queued _ _ hcopy hsync
      exact ⟨by rw [← hfound, hjob], hstate⟩
    · rw [hr] at hcopy
      cases hcopy
    · rw [hr] at hcopy
      cases hcopy
      exact ⟨rfl, hstate⟩

/-- Putting a queued job back, while its old record is no queued one. -/
theorem JobsOk.restoring (h : JobsOk s) (hold : s.read (.job original.jobId) = some target)
    (htgt : target.state ≠ .queued) (hqueued : original.state = .queued)
    (hcl : original.cluster ≠ "")
    (ht : Deriving original (s.write (.job original.jobId) original) t) : JobsOk t := by
  have hagree : Agree (fun p => p = .job original.jobId ∨ derivedFile original.jobId p) s t :=
    ((agree_write (A := (· = Path.job original.jobId)) rfl s original).mono
      fun _ => .inl).trans (ht.agree.mono fun _ => .inr)
  have hjob : t.read (.job original.jobId) = some original := by
    rw [ht.agree _ derivedFile.not_job, read_write_self]
  have hothers : ∀ id, id ≠ original.jobId →
      ¬ (Path.job id = .job original.jobId ∨ derivedFile original.jobId (.job id)) ∧
      ¬ (Path.jobQueued id = .job original.jobId ∨ derivedFile original.jobId (.jobQueued id)) ∧
      ¬ (Path.intent (.jobSync id) = .job original.jobId ∨
        derivedFile original.jobId (.intent (.jobSync id))) := fun id hid =>
    ⟨by simp [hid, derivedFile.not_job], by simp [derivedFile.others hid],
      by simp [derivedFile.not_intent]⟩
  refine h.change hagree hothers (fun found hfound => ?_) (fun copy hcopy hsync => ?_)
    fun _ => by rw [hjob]; rfl
  · rw [hjob] at hfound
    cases hfound
    exact ⟨rfl, hcl⟩
  · rw [hagree _ (by simp [derivedFile.not_intent])] at hsync
    rcases ht.queued with hr | hr | ⟨-, hr⟩
    · rw [hr, read_write_ne _] at hcopy
      obtain ⟨hfound, hstate⟩ := h.queued _ _ hcopy hsync
      rw [hold] at hfound
      cases hfound
      exact absurd hstate htgt
    · rw [hr] at hcopy
      cases hcopy
    · rw [hr] at hcopy
      cases hcopy
      exact ⟨hjob, hqueued⟩

end

/-! ### The books -/

/-- The intents of jobs and leases. -/
def IntentKey.ofLedger : IntentKey → Bool
  | .taskSync _ | .gatewaySync _ => false
  | _ => true

/-- The jobs are in order, every pending intent stands under its own name, and the leases of the
table belong to jobs. -/
structure Books (T : LeaseTable) (s : Store) : Prop where
  jobs : JobsOk s
  intents : ∀ key I, s.read (.intent key) = some I → I.key = key ∧ key.ofLedger = true
  backed : T.Backed s

section

variable {T U : LeaseTable} {s t : Store} {I : TransitionIntent} {key : IntentKey}
  {k : IntentKey} {transition : LeaseCapacityTransition} {T' : LeaseTable}

theorem Books.table (h : Books T s) (hU : U.Backed s) : Books U s := ⟨h.jobs, h.intents, hU⟩

/-- Writes of files that are neither jobs nor intents, one intent apart. -/
theorem Books.frame {A : Path → Prop} (h : Books T s) (hst : Agree A s t)
    (hA : ∀ p, A p → ¬ jobFile p) (hkeys : ∀ k, A (.intent k) → k = key)
    (hkey : ∀ I, t.read (.intent key) = some I → I.key = key ∧ key.ofLedger = true) :
    Books T t := by
  refine ⟨h.jobs.frame fun p hp => hst p fun hp' => hA p hp' hp, fun k I hread => ?_,
    h.backed.frame fun id => hst _ fun hp => hA _ hp trivial⟩
  by_cases hk : k = key
  · subst hk
    exact hkey I hread
  · rw [hst _ fun hp => hk (hkeys k hp)] at hread
    exact h.intents k I hread

theorem ledgerFile.eq_of_intent (h : ledgerFile key (.intent k)) : k = key := by
  rcases h with h | h | h
  · exact h.elim
  · exact h.elim
  · cases h
    rfl

theorem ledgerFile.not_job {id : DurableRecordId} (hkey : key.carriesCapacity = true) :
    ¬ ledgerFile key (.job id) := fun hp => hp.not_jobFile hkey trivial

theorem carriesCapacity.ofLedger (h : key.carriesCapacity = true) : key.ofLedger = true := by
  cases key <;> first | rfl | cases h

theorem Books.tearing (h : Books U s) (hI : I.key.carriesCapacity = true)
    (ht : Tearing I transition T T' s t) : Books U t := by
  refine h.frame ht.agree (fun p hp => hp.not_jobFile hI)
    (fun k hk => ledgerFile.eq_of_intent hk) fun J hJ => ?_
  rw [ht.intent] at hJ
  cases hJ
  exact ⟨rfl, carriesCapacity.ofLedger hI⟩

theorem Books.moved (h : Books U s) (hkey : key.carriesCapacity = true) (ht : Moved key T s t) :
    Books U t := by
  refine h.frame ht.agree (fun p hp => hp.not_jobFile hkey)
    (fun k hk => ledgerFile.eq_of_intent hk) fun J hJ => ?_
  rw [ht.intent] at hJ
  cases hJ

theorem Alone.tearing (h : Alone I.key s) (ht : Tearing I transition T T' s t) : Alone I.key t :=
  h.frame ht.agree fun _ _ hne hp => hne (ledgerFile.eq_of_intent hp)

theorem Alone.moved (h : Alone key s) (ht : Moved key T s t) : NoCapacityIntent t :=
  Alone.none (h.frame ht.agree fun _ _ hne hp => hne (ledgerFile.eq_of_intent hp)) ht.intent

theorem Tearing.here (h : Tearing I transition T T' s t) : Tearing I transition T T' t t :=
  h.rebase (Agree.refl (fun _ => False) t) fun _ => False.elim

theorem repairFile.eq_of_intent (h : repairFile (.intent k)) : k = .leaseIndexRepair := by
  rcases h with h | h | h | h
  · exact h.elim
  · exact h.elim
  · cases h
  · cases h
    rfl

theorem Books.repairing {limit : Nat} {target : LeaseCapacityPair} {restoreComplete : Bool}
    (h : Books U s) (ht : Repairing limit target restoreComplete T s t) : Books U t := by
  refine h.frame ht.agree (fun p hp => hp.not_jobFile)
    (fun k hk => repairFile.eq_of_intent hk) fun J hJ => ?_
  rw [ht.intent] at hJ
  cases hJ
  exact ⟨rfl, rfl⟩

theorem Books.repaired (h : Books U s) (ht : Agree repairFile s t)
    (hnone : t.read (.intent .leaseIndexRepair) = none) : Books U t := by
  refine h.frame ht (fun p hp => hp.not_jobFile) (fun k hk => repairFile.eq_of_intent hk)
    fun J hJ => ?_
  rw [hnone] at hJ
  cases hJ

theorem Alone.repair (h : Alone .leaseIndexRepair s) (ht : Agree repairFile s t) :
    Alone .leaseIndexRepair t :=
  h.frame ht fun _ _ hne hp => hne (repairFile.eq_of_intent hp)

end

section

variable [Platform] {T : LeaseTable} {s t : Store} {job original target : RelayJob}
  {key : IntentKey}

/-- The new record of a job that has leases describes them. -/
def KeepsLeases (T : LeaseTable) (job : RelayJob) : Prop :=
  ∀ id e, T.read id = some e → e.lease.jobId = job.jobId → e.IsOf job

omit [Platform] in
theorem LeaseTable.Backed.replace {A : Path → Prop} (h : T.Backed s) (hst : Agree A s t)
    (hA : ∀ id, id ≠ job.jobId → ¬ A (.job id)) (hjob : KeepsLeases T job)
    (hread : t.read (.job job.jobId) = s.read (.job job.jobId) ∨
      t.read (.job job.jobId) = some job) : T.Backed t := by
  refine ⟨h.named, fun id e he => ?_⟩
  by_cases hid : e.lease.jobId = job.jobId
  · rcases hread with hr | hr
    · obtain ⟨found, hfound, hof⟩ := h.job id e he
      exact ⟨found, by rw [hid, hr, ← hid, hfound], hof⟩
    · exact ⟨job, by rw [hid, hr], hjob id e he hid⟩
  · obtain ⟨found, hfound, hof⟩ := h.job id e he
    exact ⟨found, by rw [hst _ (hA _ hid), hfound], hof⟩

theorem Books.writing (h : Books T s) (hjob : KeepsLeases T job) (ht : JobWriting job s t) :
    Books T t := by
  refine ⟨h.jobs.writing ht, fun k I hread => ?_, h.backed.replace ht.agree
    (fun id hid => jobWriteFile.not_job hid) hjob (ht.canonical.imp And.left And.left)⟩
  by_cases hk : k = .jobSync job.jobId
  · subst hk
    rcases ht.journal with hr | hr
    · rw [hr] at hread
      exact h.intents _ I hread
    · rw [hr] at hread
      cases hread
      exact ⟨rfl, rfl⟩
  · rw [ht.agree _ (jobWriteFile.not_intent hk)] at hread
    exact h.intents k I hread

theorem Books.written (h : Books T s) (hjob : KeepsLeases T job) (ht : JobWritten job s t) :
    Books T t := by
  refine ⟨h.jobs.written ht, fun k I hread => ?_, h.backed.replace ht.agree
    (fun id hid => jobWriteFile.not_job hid) hjob (.inr ht.canonical)⟩
  by_cases hk : k = .jobSync job.jobId
  · subst hk
    rw [ht.intent] at hread
    cases hread
  · rw [ht.agree _ (jobWriteFile.not_intent hk)] at hread
    exact h.intents k I hread

omit [Platform] in
theorem Alone.jobWrite (h : Alone key s) (ht : Agree (jobWriteFile job.jobId) s t) :
    Alone key t := by
  refine h.frame ht fun k hk _ => jobWriteFile.not_intent ?_
  rintro rfl
  cases hk

/-- Restoring the original of a job that was acquired keeps the books, also while its copies are
still being derived. -/
theorem Books.restoring (h : Books T s) (hold : s.read (.job original.jobId) = some target)
    (htgt : target.state ≠ .queued) (hqueued : original.state = .queued)
    (hcl : original.cluster ≠ "") (hjob : KeepsLeases T original)
    (ht : Deriving original (s.write (.job original.jobId) original) t) : Books T t := by
  have hagree : Agree (fun p => p = .job original.jobId ∨ derivedFile original.jobId p) s t :=
    ((agree_write (A := (· = Path.job original.jobId)) rfl s original).mono
      fun _ => .inl).trans (ht.agree.mono fun _ => .inr)
  refine ⟨h.jobs.restoring hold htgt hqueued hcl ht, fun k I hread => ?_,
    h.backed.replace hagree (fun id hid => by simp [hid, derivedFile.not_job]) hjob (.inr ?_)⟩
  · rw [hagree _ (by simp [derivedFile.not_intent])] at hread
    exact h.intents k I hread
  · rw [ht.agree _ derivedFile.not_job, read_write_self]

end

/-! ### The ledger -/

/-- A property of tables that removals keep. -/
def Hereditary (P : LeaseTable → Prop) : Prop := ∀ T ids, P T → P (T.remove ids)

/-- The pending intent, and where on its way the queue is.  `P` holds of the table before it and
of the table it leads to. -/
inductive Torn (P : LeaseTable → Prop) (T : LeaseTable) (s : Store) : TransitionIntent → Prop
  | acquire {lease : Lease} {original target : RelayJob} {transition : LeaseCapacityTransition}
      (hA : Acquisition T lease original target transition)
      (h : Tearing (acquireIntent lease original target transition) transition T
        (T.put (.of lease original)) s s)
      (hcur : s.read (.job original.jobId) = some original ∨
        s.read (.job original.jobId) = some target) (hP : P T)
      (hP' : P (T.put (.of lease original))) :
      Torn P T s (acquireIntent lease original target transition)
  | sync {e old : LiveLease} {job : RelayJob} {transition : LeaseCapacityTransition}
      (hlive : T.read e.lease.leaseId = some old) (hrenews : e.Renews old)
      (hjob : e.lease.jobId = job.jobId) (hof : e.IsOf job) (hcl : e.cluster ≠ "")
      (hbtw : transition.Between T (T.put e))
      (h : Tearing (.leaseSync e.lease old.lease job transition) transition T (T.put e) s s)
      (hP : P T) (hP' : P (T.put e)) : Torn P T s (.leaseSync e.lease old.lease job transition)
  | delete {e : LiveLease} {transition : LeaseCapacityTransition}
      (hlive : T.read e.lease.leaseId = some e) (hcl : e.cluster ≠ "")
      (hbtw : transition.Between T (T.remove [e.lease.leaseId]))
      (h : Tearing (.leaseDelete e.lease e.identity transition) transition T
        (T.remove [e.lease.leaseId]) s s) (hP : P T) (hP' : P (T.remove [e.lease.leaseId])) :
      Torn P T s (.leaseDelete e.lease e.identity transition)
  | recovery {original target : RelayJob} {leases : List Lease} {event : RelayEvent}
      {transition : LeaseCapacityTransition}
      (hR : Recovery T original target leases event transition)
      (h : Tearing (.staleLeaseRecovery original target leases event transition) transition T
        (T.remove (leases.map Lease.leaseId)) s s)
      (hcur : s.read (.job original.jobId) = some original ∨
        s.read (.job original.jobId) = some target) (hready : RecoveryReady original leases s)
      (hP : P T) (hP' : P (T.remove (leases.map Lease.leaseId))) :
      Torn P T s (.staleLeaseRecovery original target leases event transition)
  | repair {limit : Nat} {target : LeaseCapacityPair} {restoreComplete : Bool}
      (htgt : target.Exact T) (h : Repairing limit target restoreComplete T s s) (hP : P T) :
      Torn P T s (.leaseIndexRepair limit target restoreComplete)

/-- **The ledger**: a table at rest, or one intent on its way. -/
inductive Ledger (P : LeaseTable → Prop) (s : Store) : Prop
  | rest {T : LeaseTable} (hbooks : Books T s) (hquiet : NoCapacityIntent s) (hrest : AtRest T s)
      (hP : P T)
  | torn {T : LeaseTable} {I : TransitionIntent} (hbooks : Books T s) (halone : Alone I.key s)
      (h : Torn P T s I)

variable {P P' : LeaseTable → Prop} {T : LeaseTable} {s t : Store}
  {id : DurableRecordId} {key : IntentKey} {transition : LeaseCapacityTransition}
  {U : LeaseTable} {e : LiveLease} {s₀ : Store} {I : TransitionIntent}

theorem Torn.carriesCapacity (h : Torn P T s I) : I.key.carriesCapacity = true := by
  cases h <;> rfl

theorem Torn.intent (h : Torn P T s I) : s.read (.intent I.key) = some I := by
  cases h with
  | acquire hA h | sync hlive hrenews hjob hof hcl hbtw h
  | delete hlive hcl hbtw h | recovery hR h | repair htgt h => exact h.intent

/-! ### Replaying the pending intent -/

/-- No job and no lease has been added. -/
structure NoNew (s t : Store) : Prop where
  jobs : ∀ id, s.read (.job id) = none → t.read (.job id) = none
  leases : ∀ id, s.read (.lease id) = none → t.read (.lease id) = none
  keys : ∀ key, t.read (.idempotency key) = s.read (.idempotency key)

theorem NoNew.refl (s : Store) : NoNew s s := ⟨fun _ => id, fun _ => id, fun _ => rfl⟩

theorem NoNew.trans {u : Store} (h : NoNew s t) (h' : NoNew t u) : NoNew s u :=
  ⟨fun id hid => h'.jobs id (h.jobs id hid), fun id hid => h'.leases id (h.leases id hid),
    fun key => (h'.keys key).trans (h.keys key)⟩

theorem NoNew.of_agree {A : Path → Prop} (h : Agree A s t) (hjob : ∀ id, ¬ A (.job id))
    (hlease : ∀ id, ¬ A (.lease id)) (hkey : ∀ key, ¬ A (.idempotency key)) : NoNew s t :=
  ⟨fun id hid => by rw [h _ (hjob id), hid], fun id hid => by rw [h _ (hlease id), hid],
    fun key => h _ (hkey key)⟩

/-- A lease of both tables has its file wherever the queue is on the way between them. -/
theorem Tearing.missing {T' : LeaseTable} (h : Tearing I transition T T' s₀ s)
    (hU : ∀ id e, U.read id = some e → (T.read id).isSome ∧ (T'.read id).isSome)
    (hid : s.read (.lease id) = none) : U.read id = none := by
  rcases hr : U.read id with _ | e
  · rfl
  · obtain ⟨h₁, h₂⟩ := hU id e hr
    rcases h.moving.between (.lease id) trivial with hf | hf
    · rw [hid, LeaseTable.file_lease, Eq.comm, Option.map_eq_none_iff] at hf
      rw [hf] at h₁
      cases h₁
    · rw [hid, LeaseTable.file_lease, Eq.comm, Option.map_eq_none_iff] at hf
      rw [hf] at h₂
      cases h₂

theorem Tearing.missing_remove {ids : List DurableRecordId}
    (h : Tearing I transition T (T.remove ids) s₀ s) (id : DurableRecordId)
    (hid : s.read (.lease id) = none) : (T.remove ids).read id = none :=
  h.missing (fun id e he => ⟨by rw [(LeaseTable.read_remove_some he).2]; rfl, by rw [he]; rfl⟩) hid

theorem LeaseTable.isSome_read_put (h : (T.read id).isSome) : ((T.put e).read id).isSome := by
  by_cases hid : id = e.lease.leaseId
  · subst hid
    rw [LeaseTable.read_put_self]
    rfl
  · rwa [LeaseTable.read_put_ne hid]

/-- What the replay of an intent leaves: the queue at rest, and of the other intents no new one. -/
structure Settles (P : LeaseTable → Prop) (key : IntentKey) (s t : Store) : Prop where
  rest : ∃ U, Books U t ∧ NoCapacityIntent t ∧ AtRest U t ∧ P U
  intents : ∀ k I, t.read (.intent k) = some I → k ≠ key ∧ s.read (.intent k) = some I
  noNew : NoNew s t

theorem Settles.ledger (h : Settles P key s t) : Ledger P t := by
  obtain ⟨U, hbooks, hquiet, hrest, hP⟩ := h.rest
  exact .rest hbooks hquiet hrest hP

/-- The end of an operation that leaves the jobs alone. -/
theorem Moved.settles (ht : Moved key U s t) (hbooks : Books U s)
    (hkey : key.carriesCapacity = true) (halone : Alone key s)
    (hmiss : ∀ id, s.read (.lease id) = none → U.read id = none) (hP : P U) :
    Settles P key s t := by
  have hnew : NoNew s t := by
    constructor
    · intro id hid
      rw [ht.agree _ (ledgerFile.not_job hkey), hid]
    · intro id hid
      rw [ht.atRest.files (.lease id) trivial, LeaseTable.file_lease, hmiss id hid]
      rfl
    · intro _
      exact ht.agree _ (by simp [ledgerFile, leaseFile, capacityFile])
  refine ⟨⟨U, hbooks.moved hkey ht, halone.moved ht, ht.atRest, hP⟩, fun k I hread => ?_, hnew⟩
  have hne : k ≠ key := by
    rintro rfl
    rw [ht.intent] at hread
    cases hread
  rw [ht.agree _ fun hp => hne (ledgerFile.eq_of_intent hp)] at hread
  exact ⟨hne, hread⟩

/-- A table without some leases, or with one renewed, stays backed. -/
theorem LeaseTable.Backed.remove (h : T.Backed s) (ids : List DurableRecordId) :
    (T.remove ids).Backed s :=
  ⟨h.named.remove ids, fun _ e he => h.job _ e (LeaseTable.read_remove_some he).2⟩

theorem LeaseTable.Backed.renew {old : LiveLease} (h : T.Backed s)
    (hlive : T.read e.lease.leaseId = some old) (hrenews : e.Renews old) : (T.put e).Backed s := by
  refine ⟨h.named.put e, fun id e' he' => ?_⟩
  by_cases hid : id = e.lease.leaseId
  · subst hid
    rw [LeaseTable.read_put_self] at he'
    cases he'
    obtain ⟨job, hjob, hc, hk, hs⟩ := h.job _ old hlive
    exact ⟨job, by rw [hrenews.jobId, hjob], hc.trans hrenews.cluster.symm,
      hk.trans hrenews.kind.symm, hs.trans hrenews.spec.symm⟩
  · rw [LeaseTable.read_put_ne hid] at he'
    exact h.job id e' he'

/-- A record of a job with the cluster, kind and specification of the old one. -/
theorem LeaseTable.Backed.keepsLeases {job current : RelayJob} (h : T.Backed s)
    (hcur : s.read (.job job.jobId) = some current) (hcl : job.cluster = current.cluster)
    (hkind : job.kind = current.kind) (hspec : job.spec = current.spec) : KeepsLeases T job := by
  intro id e he hid
  obtain ⟨_, hfound, hc, hk, hs⟩ := h.job id e he
  rw [hid, hcur] at hfound
  cases hfound
  exact ⟨hcl.trans hc, hkind.trans hk, hspec.trans hs⟩

section

variable [Platform] {v : Supply} {lease : Lease} {original target job : RelayJob}
  {transition : LeaseCapacityTransition} {leases : List Lease} {event : RelayEvent}

/-! ### An acquisition that is undone -/

omit [Platform] in
theorem Acquisition.keepsLeases (hA : Acquisition T lease original target transition)
    (hT : T.Backed s) (hcur : s.read (.job original.jobId) = some original ∨
      s.read (.job original.jobId) = some target) : KeepsLeases T original := by
  obtain ⟨hc, hk, hs⟩ := hA.target_isOf
  rcases hcur with hcur | hcur
  · exact hT.keepsLeases hcur rfl rfl rfl
  · exact hT.keepsLeases hcur hc.symm hk.symm hs.symm

omit [Platform] in
theorem restoreFile.not_ledgerFile {jobId : DurableRecordId} {key : IntentKey}
    (hkey : key.carriesCapacity = true) {p : Path} (hp : p = .job jobId ∨ derivedFile jobId p) :
    ¬ ledgerFile key p :=
  jobWriteFile.not_ledgerFile hkey (hp.elim (fun hp => .inr (.inr (.inl hp)))
    fun hp => .inr (.inl hp))

/-- What the queue looks like while the job of an acquisition is put back. -/
theorem Deriving.restoreAgree (h : Deriving original (s.write (.job original.jobId) original) t) :
    Agree (fun p => p = .job original.jobId ∨ derivedFile original.jobId p) s t :=
  ((agree_write (A := (· = Path.job original.jobId)) rfl s original).mono
    fun _ => .inl).trans (h.agree.mono fun _ => .inr)

theorem Restored.agree (h : Restored original target s t) :
    Agree (fun p => p = .job original.jobId ∨ derivedFile original.jobId p) s t := by
  rcases h with ⟨rfl, -⟩ | ⟨-, -, h⟩
  · exact Agree.refl _ t
  · exact h.toDeriving.restoreAgree

theorem Restored.canonical (h : Restored original target s t) :
    t.read (.job original.jobId) = some original := by
  rcases h with ⟨rfl, h⟩ | ⟨-, -, h⟩
  · exact h
  · rw [h.agree _ derivedFile.not_job, read_write_self]

theorem Acquisition.books_restored (hA : Acquisition T lease original target transition)
    (hbooks : Books T s) (h : Restored original target s t) : Books T t := by
  rcases h with ⟨rfl, -⟩ | ⟨hs, -, h⟩
  · exact hbooks
  · refine hbooks.restoring hs ?_ hA.queued hA.cluster (hA.keepsLeases hbooks.backed (.inr hs))
      h.toDeriving
    rw [hA.target_state]
    simp

/-- The undo of an acquisition keeps the ledger. -/
theorem Releasing.ledger (hA : Acquisition T lease original target transition) (hP : P T)
    (hP' : P (T.put (.of lease original))) (hbooks : Books T s) (halone : Alone (.leaseAcquire lease.leaseId) s)
    (hs : Tearing (acquireIntent lease original target transition) transition T
      (T.put (.of lease original)) s s)
    (h : Releasing T lease original target transition s t) : Ledger P t := by
  have hjournal : ∀ {u : Store}, Agree (fun p => p = .job original.jobId ∨
      derivedFile original.jobId p) s u → Alone (.leaseAcquire lease.leaseId) u := fun hu =>
    halone.frame hu fun k _ _ => by simp [derivedFile.not_intent]
  cases h with
  | job hold h =>
    have hagree := h.restoreAgree
    have hstate : target.state ≠ .queued := by
      rw [hA.target_state]
      simp
    refine .torn (I := acquireIntent lease original target transition)
      (hbooks.restoring hold hstate hA.queued hA.cluster
      (hA.keepsLeases hbooks.backed (.inr hold)) h) (hjournal hagree)
      (.acquire hA (hs.rebase hagree fun p hp => restoreFile.not_ledgerFile rfl hp) (.inl ?_) hP hP')
    rw [h.agree _ derivedFile.not_job, read_write_self]
  | lease hu h =>
    have halone' : Alone (acquireIntent lease original target transition).key _ :=
      hjournal hu.agree
    refine .torn ((hA.books_restored hbooks hu).tearing rfl h) (halone'.tearing h)
      (.acquire hA h.here (.inl ?_) hP hP')
    rw [h.agree _ (ledgerFile.not_job rfl), hu.canonical]

/-- An acquisition that was taken back settles the ledger without the lease when its intent is
removed. -/
theorem Released.settles (hA : Acquisition T lease original target transition) (hP : P T)
    (hbooks : Books T s) (halone : Alone (.leaseAcquire lease.leaseId) s)
    (hs : Tearing (acquireIntent lease original target transition) transition T
      (T.put (.of lease original)) s s)
    (h : Released T lease original target s t) :
    Settles P (.leaseAcquire lease.leaseId) s t := by
  obtain ⟨u, hu, h⟩ := h
  have hleases : ∀ id, u.read (.lease id) = s.read (.lease id) := fun id =>
    hu.agree _ (by simp [derivedFile, membershipFile, schedulerFile, jobCopy])
  have hmiss : ∀ id, u.read (.lease id) = none → T.read id = none := by
    intro id hid
    rw [hleases] at hid
    refine hs.missing (fun id e he => ?_) hid
    have hsome : (T.read id).isSome := by rw [he]; rfl
    exact ⟨hsome, LeaseTable.isSome_read_put hsome⟩
  have hnew : NoNew s u := by
    refine ⟨fun id hid => ?_, fun id hid => by rw [hleases, hid], fun name =>
      hu.agree _ (by simp [derivedFile, membershipFile, schedulerFile, jobCopy])⟩
    by_cases hname : id = original.jobId
    · subst hname
      rcases hu with ⟨rfl, -⟩ | ⟨hread, -⟩
      · exact hid
      · rw [hid] at hread
        cases hread
    · rw [hu.agree _ (by simp [hname, derivedFile.not_job]), hid]
  have hjournal : ∀ k, u.read (.intent k) = s.read (.intent k) := fun k =>
    hu.agree _ (by simp [derivedFile.not_intent])
  have hsettles := h.settles (hA.books_restored hbooks hu) rfl
    (halone.frame hu.agree fun k _ _ => by simp [derivedFile.not_intent]) hmiss hP
  exact ⟨hsettles.rest, fun k I hread => by
    rw [← hjournal k]
    exact hsettles.intents k I hread, hnew.trans hsettles.noNew⟩

/-! ### A recovery that is finished -/

section

omit [Platform]

/-- The leases that the table gives the job of a stale recovery describe its target too. -/
theorem Recovery.keepsLeases (hR : Recovery T original target leases event transition)
    (hT : T.Backed s) (hcur : s.read (.job original.jobId) = some original ∨
      s.read (.job original.jobId) = some target) : KeepsLeases T target := by
  have htgt := hR.target_eq
  have hj := hR.target_jobId
  rcases hcur with hcur | hcur
  · have hsame : target.cluster = original.cluster ∧ target.kind = original.kind ∧
        target.spec = original.spec := by
      rw [htgt]
      exact ⟨rfl, rfl, rfl⟩
    exact hT.keepsLeases (by rw [hj]; exact hcur) hsame.1 hsame.2.1 hsame.2.2
  · exact hT.keepsLeases (by rw [hj]; exact hcur) rfl rfl rfl

/-- A recovery is ready while its lease files stay, and once its job has changed. -/
theorem RecoveryReady.frame (h : RecoveryReady original leases s)
    (hst : ∀ p, leaseFile p → t.read p = s.read p)
    (hjob : t.read (.job original.jobId) = some original →
      s.read (.job original.jobId) = some original) : RecoveryReady original leases t := by
  intro lease hlease
  rw [hst (.lease lease.leaseId) trivial, hst (.leaseIndex _) trivial]
  exact ⟨fun hr => (h lease hlease).1 (hjob hr), (h lease hlease).2⟩

theorem recoveryEventFile.not_jobFile {p : Path} (hp : recoveryEventFile event p) : ¬ jobFile p := by
  rcases hp with rfl | rfl <;> exact id

theorem Books.recoveryEvent (h : Books T s) (ht : Agree (recoveryEventFile event) s t) :
    Books T t := by
  have hnone : ∀ k, ¬ recoveryEventFile event (.intent k) := fun k => by simp [recoveryEventFile]
  refine ⟨h.jobs.frame fun p hp => ht p fun hp' => hp'.not_jobFile hp, fun k I hread => ?_,
    h.backed.frame fun id => ht _ (by simp [recoveryEventFile])⟩
  rw [ht _ (hnone k)] at hread
  exact h.intents k I hread

end

/-- Wherever a stale recovery stops while it deletes its leases, its intent makes the ledger
recoverable, to the table with those leases or without them. -/
theorem Recovering.ledger (hR : Recovery T original target leases event transition)
    (hP : P T) (hP' : P (T.remove (leases.map Lease.leaseId))) (hbooks : Books T s)
    (halone : Alone (TransitionIntent.key
      (.staleLeaseRecovery original target leases event transition)) s)
    (hs : Tearing (.staleLeaseRecovery original target leases event transition) transition T
      (T.remove (leases.map Lease.leaseId)) s s)
    (hready : RecoveryReady original leases s)
    (hcur : s.read (.job original.jobId) = some original ∨
      s.read (.job original.jobId) = some target)
    (h : Recovering T original target leases event transition s t) : Ledger P t := by
  have hkeeps := hR.keepsLeases hbooks.backed hcur
  have hj := hR.target_jobId
  have hledger : ∀ p, jobWriteFile target.jobId p → ¬ ledgerFile
      (TransitionIntent.key (.staleLeaseRecovery original target leases event transition)) p :=
    fun p hp => hp.not_ledgerFile rfl
  have hleases : ∀ {u : Store}, Agree (jobWriteFile target.jobId) s u →
      ∀ p, leaseFile p → u.read p = s.read p := fun hu p hp => hu p fun hp' => hledger p hp' (.inl hp)
  -- Once the job is written, it is the target for good.
  have hwritten : ∀ {u : Store}, JobWritten target s u → u.read (.job original.jobId) = some target :=
    fun hu => by rw [← hj, hu.canonical]
  have hchg : ∀ {u : Store}, u.read (.job original.jobId) = some target →
      u.read (.job original.jobId) = some original → s.read (.job original.jobId) = some original :=
    fun hu hu' => absurd (Option.some.inj (hu.symm.trans hu')) hR.target_ne
  cases h with
  | job h =>
    rcases h with rfl | h
    · exact .torn hbooks halone (.recovery hR hs hcur hready hP hP')
    · have hjob : t.read (.job original.jobId) = s.read (.job original.jobId) ∨
          t.read (.job original.jobId) = some target := by
        rw [← hj]
        exact h.canonical.imp And.left And.left
      refine .torn (hbooks.writing hkeeps h) (halone.jobWrite h.agree)
        (.recovery hR (hs.rebase h.agree hledger) ?_
          (hready.frame (hleases h.agree) fun hr => ?_) hP hP')
      · rcases hjob with hr | hr
        · rw [hr]
          exact hcur
        · exact .inr hr
      · rcases hjob with hr' | hr'
        · rw [← hr', hr]
        · exact hchg hr' hr
  | event hu h =>
    have hagree := h.agree
    have hjob : t.read (.job original.jobId) = some target := by
      rw [hagree _ (by simp [recoveryEventFile]), hwritten hu]
    refine .torn ((hbooks.written hkeeps hu).recoveryEvent hagree) ?_ (.recovery hR
      ((hs.rebase hu.agree hledger).rebase hagree fun p hp => hp.not_ledgerFile) (.inr hjob)
      (hready.frame (fun p hp => ?_) (hchg hjob)) hP hP')
    · exact (halone.jobWrite hu.agree).frame hagree fun k _ _ => by simp [recoveryEventFile]
    · rw [hagree p fun hp' => hp'.not_ledgerFile (.inl hp : ledgerFile .leaseIndexRepair p),
        hleases hu.agree p hp]
  | lease hu hx h hord =>
    have hagree := hx.agree
    have hjob : t.read (.job original.jobId) = some target := by
      rw [h.agree _ (ledgerFile.not_job rfl), hagree _ (by simp [recoveryEventFile]), hwritten hu]
    have halone' : Alone (TransitionIntent.key
        (.staleLeaseRecovery original target leases event transition)) _ :=
      (halone.jobWrite hu.agree).frame hagree fun k _ _ => by simp [recoveryEventFile]
    refine .torn (((hbooks.written hkeeps hu).recoveryEvent hagree).tearing rfl h) (halone'.tearing h)
      (.recovery hR h.here (.inr hjob) (fun lease hlease => ⟨fun hr => ?_, hord lease hlease⟩)
        hP hP')
    exact absurd (Option.some.inj (hjob.symm.trans hr)) hR.target_ne

/-- After the leases are deleted and the pair is written, removing the intent of a stale recovery
settles the ledger without them. -/
theorem Recovered.settles (hR : Recovery T original target leases event transition)
    (hP : P (T.remove (leases.map Lease.leaseId))) (hbooks : Books T s)
    (halone : Alone (TransitionIntent.key
      (.staleLeaseRecovery original target leases event transition)) s)
    (hs : Tearing (.staleLeaseRecovery original target leases event transition) transition T
      (T.remove (leases.map Lease.leaseId)) s s)
    (hcur : s.read (.job original.jobId) = some original ∨
      s.read (.job original.jobId) = some target)
    (h : Recovered T original target leases event transition s t) :
    Settles P (TransitionIntent.key
      (.staleLeaseRecovery original target leases event transition)) s t := by
  obtain ⟨u, x, hu, hx, h⟩ := h
  have hkeeps := hR.keepsLeases hbooks.backed hcur
  have hbooks' := ((hbooks.written hkeeps hu).recoveryEvent hx.agree)
  have halone' := (halone.jobWrite hu.agree).frame hx.agree fun k _ _ => by simp [recoveryEventFile]
  have hleases : ∀ id, x.read (.lease id) = s.read (.lease id) := fun id => by
    rw [hx.agree _ (by simp [recoveryEventFile]), hu.agree _ jobWriteFile.not_lease]
  have hnew : NoNew s x := by
    refine ⟨fun id hid => ?_, fun id hid => by rw [hleases, hid], fun name => ?_⟩
    rotate_left
    · rw [hx.agree _ (by simp [recoveryEventFile]), hu.agree _ (by simp [jobWriteFile,
        cleanupReceipt, derivedFile, membershipFile, schedulerFile, jobCopy])]
    rw [hx.agree _ (by simp [recoveryEventFile])]
    by_cases hname : id = target.jobId
    · rw [hname, hR.target_jobId] at hid
      rcases hcur with hcur | hcur
      all_goals
        rw [hid] at hcur
        cases hcur
    · rw [hu.agree _ (jobWriteFile.not_job hname), hid]
  have hsettles := h.settles (hbooks'.table (hbooks'.backed.remove _)) rfl halone'
    (fun id hid => hs.missing_remove id (by rw [← hleases, hid])) hP
  refine ⟨hsettles.rest, fun k I hread => ?_, hnew.trans hsettles.noNew⟩
  obtain ⟨hne, hread⟩ := hsettles.intents k I hread
  refine ⟨hne, ?_⟩
  rw [hx.agree _ (by simp [recoveryEventFile])] at hread
  by_cases hk : k = .jobSync target.jobId
  · rw [hk, hu.intent] at hread
    cases hread
  · rwa [hu.agree _ (jobWriteFile.not_intent hk)] at hread

/-! ### The replay of one intent -/

variable [Entropy] {jobId : DurableRecordId} {I : TransitionIntent}

/-- **The replay of the pending intent** keeps the ledger, and when it completes the queue is at
rest. -/
theorem Torn.wp_applyIntent (h : Torn P T s I) (hbooks : Books T s) (halone : Alone I.key s) :
    wp (applyIntent I) (Ledger P) (fun _ t _ => Settles P I.key s t)
      (fun _ t _ => Ledger P t) s v := by
  cases h with
  | acquire hA h hcur hP hP' =>
    simp only [acquireIntent, applyIntent, wp_bind, wp_pure]
    refine wp_reconcileLeaseAcquireIntent hA hbooks.jobs h hcur
      (fun t ht => ht.ledger hA hP hP' hbooks halone h)
      (fun t ht => (ht.settles hA hP hbooks halone h).ledger)
      (fun t w ht => ht.settles hA hP hbooks halone h) fun err t w hs _ ht => ?_
    rcases ht with rfl | ht
    · exact .torn hbooks halone (.acquire hA h hcur hP hP')
    · exact (Releasing.job hs ht : Releasing T _ _ _ _ s t).ledger hA hP hP' hbooks halone h
  | @sync e _ _ _ hlive hrenews hjob hof hcl hbtw h hP hP' =>
    have hledger : ∀ t, Tearing _ _ T _ s t → Ledger P t := fun t ht =>
      .torn (hbooks.tearing rfl ht) (halone.tearing ht)
        (.sync hlive hrenews hjob hof hcl hbtw ht.here hP hP')
    have hmoved := hbooks.table (hbooks.backed.renew hlive hrenews)
    have hmiss : ∀ id, s.read (.lease id) = none → (T.put e).read id = none := by
      intro id hid
      refine h.missing (fun id e' he' => ⟨?_, by rw [he']; rfl⟩) hid
      by_cases hname : id = e.lease.leaseId
      · rw [hname, hlive]
        rfl
      · rw [LeaseTable.read_put_ne hname] at he'
        rw [he']
        rfl
    simp only [applyIntent, wp_bind, wp_pure]
    exact wp_replayLeaseSync h hbooks.backed.named hlive hrenews hjob hof hcl hbtw
      hledger (fun t ht => (ht.settles hmoved rfl halone hmiss hP').ledger)
      (fun t w ht => ht.settles hmoved rfl halone hmiss hP') fun err t w ht => hledger t ht
  | @delete e _ hlive hcl hbtw h hP hP' =>
    have hmoved := hbooks.table (hbooks.backed.remove [e.lease.leaseId])
    simp only [applyIntent, wp_bind, wp_pure]
    exact wp_replayLeaseDelete h hbooks.backed.named hlive hcl hbtw
      (fun t ht => .torn (hbooks.tearing rfl ht) (halone.tearing ht)
        (.delete hlive hcl hbtw ht.here hP hP'))
      (fun t ht => (ht.settles hmoved rfl halone h.missing_remove hP').ledger)
      fun t w ht => ht.settles hmoved rfl halone h.missing_remove hP'
  | recovery hR h hcur hready hP hP' =>
    simp only [applyIntent, wp_bind, wp_pure]
    exact wp_applyStaleLeaseRecoveryIntent hR hbooks.backed.named hbooks.jobs h hready hcur
      (fun t ht => ht.ledger hR hP hP' hbooks halone h hready hcur)
      (fun t ht => (ht.settles hR hP' hbooks halone h hcur).ledger)
      (fun t w ht => ht.settles hR hP' hbooks halone h hcur)
      (fun err t w _ ht => (Recovering.job ht : Recovering T _ _ _ _ _ s t).ledger hR hP hP' hbooks
        halone h hready hcur)
      fun err u t w _ hu ht => (Recovering.event hu ht : Recovering T _ _ _ _ _ s t).ledger hR hP hP'
        hbooks halone h hready hcur
  | @repair limit target restoreComplete htgt h hP =>
    have hledger : ∀ t, Repairing limit target restoreComplete T s t → Ledger P t := fun t ht =>
      .torn (I := .leaseIndexRepair limit target restoreComplete) (hbooks.repairing ht) (halone.repair ht.agree)
        (.repair htgt ⟨Agree.refl _ t, ht.intent, ht.moving⟩ hP)
    have hsettles : ∀ t, Repaired T s t → Settles P .leaseIndexRepair s t := by
      intro t ht
      refine ⟨⟨T, hbooks.repaired ht.agree ht.intent,
        (Alone.repair halone ht.agree).none ht.intent, ht.atRest, hP⟩, fun k I hread => ?_,
        fun id hid => ?_, fun id hid => ?_, fun name =>
        ht.agree _ (by simp [repairFile, leaseFile, capacityFile])⟩
      rotate_left
      · rw [ht.agree (.job id) fun hp => hp.not_jobFile trivial, hid]
      · rw [ht.atRest.files (.lease id) trivial, LeaseTable.file_lease, ← h.leases, hid]
      have hne : k ≠ .leaseIndexRepair := by
        rintro rfl
        rw [ht.intent] at hread
        cases hread
      rw [ht.agree _ fun hp => hne (repairFile.eq_of_intent hp)] at hread
      exact ⟨hne, hread⟩
    simp only [applyIntent, wp_bind, wp_pure]
    exact wp_applyLeaseIndexRepairIntent hbooks.jobs hbooks.backed h htgt hledger
      (fun t ht => (hsettles t ht).ledger) (fun _ t w ht => hsettles t ht)
      fun err t w ht => hledger t ht

/-! ### Derived indexes -/

omit [Platform] [Entropy] in
/-- The intent of a job whose queued copy is up to date can go. -/
theorem Books.unlinkSync (h : Books T s)
    (hqueued : ∀ copy, s.read (.jobQueued jobId) = some copy → s.read (.job jobId) = some copy ∧ copy.state = .queued) :
    Books T (s.unlink (.intent (.jobSync jobId))) := by
  have hagree := agree_unlink (A := (· = Path.intent (.jobSync jobId))) rfl s
  have hothers : ∀ id, id ≠ jobId → ¬ Path.job id = .intent (.jobSync jobId) ∧
      ¬ Path.jobQueued id = .intent (.jobSync jobId) ∧
      ¬ Path.intent (.jobSync id) = .intent (.jobSync jobId) := fun id hid => by simp [hid]
  refine ⟨h.jobs.change hagree hothers (fun found hfound => ?_) (fun copy hcopy _ => ?_)
    fun hcopy => ?_, fun k I hread => ?_, h.backed.frame fun id => hagree _ (by simp)⟩
  · rw [hagree _ (by simp)] at hfound
    exact ⟨h.jobs.named _ _ hfound, h.jobs.cluster _ _ hfound⟩
  · rw [hagree _ (by simp)] at hcopy ⊢
    exact hqueued copy hcopy
  · rw [hagree _ (by simp)] at hcopy ⊢
    exact h.jobs.copied _ hcopy
  · rw [read_unlink] at hread
    split at hread
    · cases hread
    · exact h.intents k I hread

omit [Platform] [Entropy] in
theorem derivedFile.not_leaseFile {p : Path} (hp : derivedFile jobId p) :
    ¬ leaseFile p ∧ ¬ capacityFile p := by
  have hledger : ¬ ledgerFile .leaseIndexRepair p := restoreFile.not_ledgerFile rfl (.inr hp)
  exact ⟨fun h => hledger (.inl h), fun h => hledger (.inr (.inl h))⟩

omit [Entropy] in
theorem Books.deriving (h : Books T s) (hjob : s.read (.job job.jobId) = some job)
    (ht : Deriving job s t) : Books T t := by
  refine ⟨h.jobs.deriving hjob ht, fun k I hread => ?_,
    h.backed.frame fun id => ht.agree _ derivedFile.not_job⟩
  rw [ht.agree _ derivedFile.not_intent] at hread
  exact h.intents k I hread

omit [Entropy] in
/-- **The replay of a job write** derives the indexes of the canonical record. -/
theorem wp_replayJobSync_ledger (hbooks : Books T s) (hquiet : NoCapacityIntent s)
    (hrest : AtRest T s) (hP : P T) :
    wp (replayJobSync jobId) (Ledger P) (fun _ t _ => Settles P (.jobSync jobId) s t)
      (fun _ t _ => Ledger P t) s v := by
  -- Removing the intent of a job that is settled.
  have hunlink : ∀ t w, Books T t → NoCapacityIntent t → AtRest T t →
      (∀ k, t.read (.intent k) = s.read (.intent k)) → NoNew s t →
      (∀ copy, t.read (.jobQueued jobId) = some copy →
        t.read (.job jobId) = some copy ∧ copy.state = .queued) →
      wp (unlink (.intent (.jobSync jobId))) (Ledger P)
        (fun _ t _ => Settles P (.jobSync jobId) s t) (fun _ t _ => Ledger P t) t w := by
    intro t w hbooks hquiet hrest hintents hnew hqueued
    have hagree := agree_unlink (A := (· = Path.intent (.jobSync jobId))) rfl t
    have hend : Settles P (.jobSync jobId) s (t.unlink (.intent (.jobSync jobId))) := by
      refine ⟨⟨T, hbooks.unlinkSync hqueued, fun k hk => ?_,
        hrest.frame hagree fun p hp => by rw [hp]; exact ⟨id, id⟩, hP⟩, fun k I hread => ?_,
        hnew.trans (.of_agree hagree (fun _ => by simp) (fun _ => by simp) fun _ => by simp)⟩
      · rw [read_unlink]
        split
        · rfl
        · exact hquiet k hk
      · rw [read_unlink] at hread
        split at hread
        · cases hread
        · next hne =>
            rw [hintents] at hread
            exact ⟨fun heq => hne (by rw [heq]), hread⟩
    exact wp_unlink.2 ⟨hend.ledger, hend⟩
  unfold replayJobSync
  rw [wp_bind]
  refine wp_readJob hbooks.jobs ?_
  rcases hread : s.read (.job jobId) with _ | job
  · rw [wp_bind, wp_pure]
    refine hunlink s v hbooks hquiet hrest (fun _ => rfl) (.refl s) fun copy hcopy => ?_
    have hsome := hbooks.jobs.copied jobId (by rw [hcopy]; rfl)
    rw [hread] at hsome
    cases hsome
  · have hname := hbooks.jobs.named _ _ hread
    have hread' : s.read (.job job.jobId) = some job := by
      rw [hname]
      exact hread
    have hlater : ∀ t, Deriving job s t → Books T t ∧ NoCapacityIntent t ∧ AtRest T t := by
      intro t ht
      refine ⟨hbooks.deriving hread' ht, fun k hk => ?_,
        hrest.frame ht.agree fun p hp => hp.not_leaseFile⟩
      rw [ht.agree _ derivedFile.not_intent, hquiet k hk]
    have hledger : ∀ t, Deriving job s t → Ledger P t := fun t ht =>
      .rest (hlater t ht).1 (hlater t ht).2.1 (hlater t ht).2.2 hP
    rw [wp_bind]
    refine wp_syncJobDerived hledger (fun t w ht => ?_) fun err t w _ ht => hledger t ht
    obtain ⟨hbooks', hquiet', hrest'⟩ := hlater t ht.toDeriving
    have hnew : NoNew s t := .of_agree ht.agree (fun _ => derivedFile.not_job)
      (fun _ hp => hp.not_leaseFile.1 trivial)
      fun _ => by simp [derivedFile, membershipFile, schedulerFile, jobCopy]
    refine hunlink t w hbooks' hquiet' hrest' (fun k => ht.agree _ derivedFile.not_intent) hnew
      fun copy hcopy => ?_
    have hsettled := ht.settled
    rw [hname] at hsettled
    rw [hsettled] at hcopy
    split at hcopy
    · next hstate =>
        cases hcopy
        exact ⟨by rw [ht.agree _ derivedFile.not_job, hread], hstate⟩
    · cases hcopy

/-! ### The replay -/

/-- The replayed intents: each pending one once, in the order of their kinds. -/
theorem wp_reconcileTransitionIntents_of {C : Store → Prop}
    {Q : Post (List RelayJob)} {E : Post RelayError}
    (hnamed : ∀ key I, s.read (.intent key) = some I → I.key = key)
    (J : Post (List TransitionIntent))
    (hstart : ∀ L : List TransitionIntent, L.Pairwise (fun a b => a.order ≤ b.order) → L.Nodup →
      (∀ I, I ∈ L ↔ s.read (.intent I.key) = some I) → J L s v)
    (hstep : ∀ I rest t w, J (I :: rest) t w → wp (applyIntent I) C (fun _ t w => J rest t w) E t w)
    (hend : ∀ jobs t w, J [] t w → Q jobs t w)
    (hbd : maxTransitionIntentRecords < (s.collect intentsListed).length → ∀ err, E err s v) :
    wp reconcileTransitionIntents C Q E s v := by
  have hlist : ∀ {p : Path} {c : Content p} {I : TransitionIntent}, intentsListed p c = some I →
      s.read p = some c → p = .intent I.key ∧ s.read (.intent I.key) = some I := by
    intro p c I hf hread
    unfold intentsListed at hf
    split at hf
    · cases hf
      rw [hnamed _ _ hread]
      exact ⟨rfl, hread⟩
    · cases hf
  have hnd : (s.collect intentsListed).Nodup := by
    refine nodup_collect fun p c q d I hp hq hI hI' => ?_
    rw [(hlist hI hp).1, (hlist hI' hq).1]
  have hsort := List.pairwise_insertionSort
    (fun a b : TransitionIntent => a.order ≤ b.order) (s.collect intentsListed)
  have hperm := List.perm_insertionSort
    (fun a b : TransitionIntent => a.order ≤ b.order) (s.collect intentsListed)
  have hmem : ∀ I, I ∈ (s.collect intentsListed).insertionSort
      (fun a b : TransitionIntent => a.order ≤ b.order) ↔ s.read (.intent I.key) = some I := by
    intro I
    rw [hperm.mem_iff, mem_collect]
    constructor
    · rintro ⟨p, c, hread, hf⟩
      exact (hlist hf hread).2
    · exact fun hread => ⟨.intent I.key, I, hread, rfl⟩
  unfold reconcileTransitionIntents
  rw [wp_bind]
  refine wp_boundedListing (fun _ => ?_) fun hlarge => hbd (not_le.1 hlarge)
  have hloop := wp_gather (C := C) (E := E) (fun rest _ t w => J rest t w) applyIntent
    (fun I rest _ t w hJ => hstep I rest t w hJ) _ [] s v
    (hstart _ hsort (hperm.nodup_iff.2 hnd) hmem)
  exact wp_imp hloop fun jobs t w h => hend jobs t w h

/-- A queue at rest with an empty journal. -/
structure Settled (T : LeaseTable) (s : Store) : Prop where
  books : Books T s
  atRest : AtRest T s
  quiet : ∀ key, s.read (.intent key) = none

section

omit [Platform] [Entropy]

theorem IntentKey.eq_jobSync {key : IntentKey} (hledger : key.ofLedger = true)
    (hcap : key.carriesCapacity = false) : ∃ jobId, key = .jobSync jobId := by
  cases key <;> simp_all [IntentKey.ofLedger, IntentKey.carriesCapacity]

theorem TransitionIntent.order_jobSync (h : I.key = .jobSync jobId) : I.order = 5 := by
  cases I <;> first | rfl | cases h

theorem TransitionIntent.order_capacity (h : I.key.carriesCapacity = true) : I.order ≤ 4 := by
  cases I <;> simp_all [TransitionIntent.key, IntentKey.carriesCapacity, TransitionIntent.order]

/-- The one intent that carries a capacity transition is replayed first. -/
theorem exists_head_of_capacity {L : List TransitionIntent}
    (hsort : L.Pairwise fun a b => a.order ≤ b.order) (hI : I ∈ L)
    (hcap : I.key.carriesCapacity = true)
    (hothers : ∀ I' ∈ L, I' ≠ I → ∃ jobId, I'.key = .jobSync jobId) : ∃ rest, L = I :: rest := by
  rcases L with _ | ⟨first, rest⟩
  · cases hI
  · refine ⟨rest, ?_⟩
    by_contra hne
    have hfirst : first ≠ I := fun h => hne (by rw [h])
    have hmem : I ∈ rest := (List.mem_cons.1 hI).resolve_left (Ne.symm hfirst)
    obtain ⟨jobId, hkey⟩ := hothers first (.head _) hfirst
    have horder := (List.pairwise_cons.1 hsort).1 I hmem
    rw [TransitionIntent.order_jobSync hkey] at horder
    have := TransitionIntent.order_capacity hcap
    omega

end

/-- **Replay.**  The journal replay keeps the ledger wherever it stops; when it completes, the
queue is at rest and no intent is pending. -/
theorem Ledger.wp_reconcile (h : Ledger P s) :
    wp reconcileTransitionIntents (Ledger P)
      (fun _ t _ => (∃ U, Settled U t ∧ P U) ∧ NoNew s t) (fun _ t _ => Ledger P t) s v := by
  have hnamed : ∀ key I, s.read (.intent key) = some I → I.key = key ∧ key.ofLedger = true := by
    rcases h with ⟨hbooks, _, _, _⟩ | ⟨hbooks, _, _⟩
    all_goals exact hbooks.intents
  -- First the capacity intent, then the derived indexes of jobs.
  refine wp_reconcileTransitionIntents_of (fun key I hread => (hnamed key I hread).1)
    (fun rest t _ => (∀ k I, t.read (.intent k) = some I → I ∈ rest) ∧ NoNew s t ∧
      ((∃ I tail T, rest = I :: tail ∧ (∀ I' ∈ tail, ∃ jobId, I'.key = .jobSync jobId) ∧
        Books T t ∧ Alone I.key t ∧ Torn P T t I) ∨
      ((∀ I' ∈ rest, ∃ jobId, I'.key = .jobSync jobId) ∧
        ∃ U, Books U t ∧ NoCapacityIntent t ∧ AtRest U t ∧ P U)))
    (fun L hsort hnd hmem => ?_) (fun I rest t w hJ => ?_) (fun jobs t w hJ => ?_)
    fun _ _ => h
  · have hall : ∀ k I, s.read (.intent k) = some I → I ∈ L := fun k I hread => by
      rw [hmem, (hnamed k I hread).1]
      exact hread
    refine ⟨hall, .refl s, ?_⟩
    cases h with
    | rest hbooks hquiet hrest hP =>
      refine .inr ⟨fun I hI => ?_, _, hbooks, hquiet, hrest, hP⟩
      have hread := (hmem I).1 hI
      refine IntentKey.eq_jobSync (hnamed _ _ hread).2 (Bool.eq_false_iff.2 fun hcap => ?_)
      rw [hquiet _ hcap] at hread
      cases hread
    | @torn T I hbooks halone h =>
      have hothers : ∀ I' ∈ L, I' ≠ I → ∃ jobId, I'.key = .jobSync jobId := by
        intro I' hI' hne
        have hread := (hmem I').1 hI'
        refine IntentKey.eq_jobSync (hnamed _ _ hread).2 (Bool.eq_false_iff.2 fun hcap => ?_)
        by_cases hkey : I'.key = I.key
        · rw [hkey, h.intent] at hread
          exact hne (Option.some.inj hread).symm
        · rw [halone _ hcap hkey] at hread
          cases hread
      obtain ⟨rest, rfl⟩ := exists_head_of_capacity hsort (hall _ I h.intent)
        h.carriesCapacity hothers
      refine .inl ⟨I, rest, T, rfl, fun I' hI' => hothers I' (.tail _ hI') ?_, hbooks, halone, h⟩
      rintro rfl
      exact (List.nodup_cons.1 hnd).1 hI'
  · obtain ⟨hall, hnew, ⟨I', tail, T, heq, htail, hbooks, halone, htorn⟩ |
      ⟨hsync, U, hbooks, hquiet, hrest, hP⟩⟩ := hJ
    · cases heq
      refine wp_imp (htorn.wp_applyIntent hbooks halone) fun _ u w hu => ?_
      refine ⟨fun k J hread => ?_, hnew.trans hu.noNew, .inr ⟨htail, hu.rest⟩⟩
      obtain ⟨hne, hread⟩ := hu.intents k J hread
      refine (List.mem_cons.1 (hall k J hread)).resolve_left fun heq => hne ?_
      rw [← (hbooks.intents k J hread).1, heq]
    · obtain ⟨jobId, hkey⟩ := hsync I (.head _)
      have hintent : ∃ updatedAt, I = .jobSync jobId updatedAt := by
        cases I <;> first | cases hkey; exact ⟨_, rfl⟩ | cases hkey
      obtain ⟨updatedAt, rfl⟩ := hintent
      simp only [applyIntent, wp_bind, wp_pure]
      refine wp_imp (wp_replayJobSync_ledger hbooks hquiet hrest hP) fun _ u w hu => ?_
      refine ⟨fun k J hread => ?_, hnew.trans hu.noNew,
        .inr ⟨fun I' hI' => hsync I' (.tail _ hI'), hu.rest⟩⟩
      obtain ⟨hne, hread⟩ := hu.intents k J hread
      refine (List.mem_cons.1 (hall k J hread)).resolve_left fun heq => hne ?_
      rw [← (hbooks.intents k J hread).1, heq]
      rfl
  · obtain ⟨hall, hnew, ⟨I', tail, T, heq, -⟩ | ⟨-, U, hbooks, -, hrest, hP⟩⟩ := hJ
    · cases heq
    · refine ⟨⟨U, ⟨hbooks, hrest, fun key => ?_⟩, hP⟩, hnew⟩
      rcases hread : t.read (.intent key) with _ | I
      · rfl
      · cases hall key I hread

end

end ClioQueue
