/-
# The lease ledger

The invariant of the lease files.  A queue at rest holds the files of a lease
table and a capacity pair that counts it (`AtRest`).  An interrupted lease
operation has left exactly one intent that carries a capacity transition; the
lease files are on the way from the table before it to the table after it, and
each capacity record is one of those that the transition authorizes (`Torn`).

`Tearing` is what every lease operation goes through once its intent is written,
and `Moved` what it leaves when the intent is gone.
-/

import ClioQueue.CapacityTransitions
import ClioQueue.JobWrites
import ClioQueue.LeaseIndexMoves

namespace ClioQueue

variable {key : IntentKey} {T : LeaseTable} {p : Path} {A : Path → Prop} {s t : Store}

open Durable Durable.Files

/-! ### What the ledger rests on -/

theorem leaseFile.not_capacityFile (h : leaseFile p) : ¬ capacityFile p := by
  intro hc
  cases p <;> first | exact h | exact hc

/-- The canonical jobs carry their names and a cluster, and a queued copy is stale only while
the intent of its job is pending. -/
structure JobsOk (s : Store) : Prop where
  named : ∀ id job, s.read (.job id) = some job → job.jobId = id
  cluster : ∀ id job, s.read (.job id) = some job → job.cluster ≠ ""
  queued : ∀ id copy, s.read (.jobQueued id) = some copy →
    s.read (.intent (.jobSync id)) = none → s.read (.job id) = some copy ∧ copy.state = .queued
  copied : ∀ id, (s.read (.jobQueued id)).isSome → (s.read (.job id)).isSome

/-- The files that `JobsOk` speaks about. -/
def jobFile : Path → Prop
  | .job _ | .jobQueued _ | .intent (.jobSync _) => True
  | _ => False

theorem JobsOk.frame (h : JobsOk s) (hst : ∀ p, jobFile p → t.read p = s.read p) : JobsOk t := by
  constructor
  · intro id job hjob
    rw [hst _ (by trivial)] at hjob
    exact h.named id job hjob
  · intro id job hjob
    rw [hst _ (by trivial)] at hjob
    exact h.cluster id job hjob
  · intro id copy hcopy hsync
    rw [hst _ (by trivial)] at hcopy hsync ⊢
    exact h.queued id copy hcopy hsync
  · intro id hcopy
    rw [hst _ (by trivial)] at hcopy ⊢
    exact h.copied id hcopy

/-- `TransitionIntent.carriesCapacity`, on the name. -/
def IntentKey.carriesCapacity : IntentKey → Bool
  | .leaseIndexRepair | .leaseAcquire _ | .leaseSync _ | .leaseDelete _
  | .staleLeaseRecovery .. => true
  | .jobSync _ | .taskSync _ | .gatewaySync _ => false

theorem TransitionIntent.carriesCapacity_key (I : TransitionIntent) :
    I.key.carriesCapacity = I.carriesCapacity := by
  cases I <;> rfl

/-- No intent that carries a capacity transition is pending. -/
def NoCapacityIntent (s : Store) : Prop :=
  ∀ key, key.carriesCapacity = true → s.read (.intent key) = none

/-- No intent that carries a capacity transition is pending, except perhaps one of this name. -/
def Alone (key : IntentKey) (s : Store) : Prop :=
  ∀ k, k.carriesCapacity = true → k ≠ key → s.read (.intent k) = none

theorem NoCapacityIntent.alone (h : NoCapacityIntent s) (key : IntentKey) : Alone key s :=
  fun k hk _ => h k hk

theorem Alone.none (h : Alone key s) (hkey : s.read (.intent key) = none) : NoCapacityIntent s := by
  intro k hk
  by_cases heq : k = key
  · rw [heq, hkey]
  · exact h k hk heq

theorem Alone.frame (h : Alone key s) (hst : Agree A s t)
    (hA : ∀ k, k.carriesCapacity = true → k ≠ key → ¬ A (.intent k)) : Alone key t := by
  intro k hk hne
  rw [hst _ (hA k hk hne), h k hk hne]

/-! ### Tables at rest -/

/-- The data of a live lease that its job determines. -/
def LiveLease.IsOf (e : LiveLease) (job : RelayJob) : Prop :=
  job.cluster = e.cluster ∧ job.kind = e.kind ∧ job.spec = e.spec

/-- The live lease of a lease and its job. -/
def LiveLease.of (lease : Lease) (job : RelayJob) : LiveLease :=
  ⟨lease, job.cluster, job.kind, job.spec⟩

theorem LiveLease.of_isOf (lease : Lease) (job : RelayJob) : (LiveLease.of lease job).IsOf job :=
  ⟨rfl, rfl, rfl⟩

theorem LiveLease.IsOf.eq_of {e : LiveLease} {job : RelayJob} (h : e.IsOf job) :
    e = LiveLease.of e.lease job := by
  obtain ⟨lease, _, _, _⟩ := e
  obtain ⟨hc, hk, hs⟩ := h
  simp only at hc hk hs
  rw [LiveLease.of, hc, hk, hs]

/-- The live leases stand under their ids and belong to canonical jobs. -/
structure LeaseTable.Backed (T : LeaseTable) (s : Store) : Prop where
  named : T.Named
  job : ∀ id e, T.read id = some e → ∃ job, s.read (.job e.lease.jobId) = some job ∧ e.IsOf job

/-- A table stays backed while the jobs stay. -/
theorem LeaseTable.Backed.frame (hT : T.Backed s) (hst : ∀ id, t.read (.job id) = s.read (.job id)) :
    T.Backed t := by
  refine ⟨hT.named, fun id e he => ?_⟩
  obtain ⟨job, hjob, hof⟩ := hT.job id e he
  exact ⟨job, by rw [hst, hjob], hof⟩

/-- The lease files are those of the table, and the capacity pair counts it. -/
structure AtRest (T : LeaseTable) (s : Store) : Prop where
  files : ∀ p, leaseFile p → s.read p = T.file p
  pair : ∃ pair, HoldsPair pair s ∧ pair.Exact T

/-- A queue stays at rest while the lease files and the capacity pair stay. -/
theorem AtRest.frame (h : AtRest T s) (hst : Agree A s t)
    (hA : ∀ p, A p → ¬ leaseFile p ∧ ¬ capacityFile p) : AtRest T t := by
  obtain ⟨pair, ⟨haggregate, hckpt⟩, hexact⟩ := h.pair
  refine ⟨fun p hp => ?_, pair, ⟨?_, ?_⟩, hexact⟩
  · rw [hst p fun hp' => (hA p hp').1 hp, h.files p hp]
  · rw [hst .capacityAggregate fun hp => (hA _ hp).2 trivial, haggregate]
  · rw [hst .capacityCheckpoint fun hp => (hA _ hp).2 trivial, hckpt]

/-- What a lease operation changes besides the job and its events. -/
def ledgerFile (key : IntentKey) (p : Path) : Prop :=
  leaseFile p ∨ capacityFile p ∨ p = .intent key

theorem leaseFile.not_jobFile (hp : leaseFile p) : ¬ jobFile p := by
  cases p <;> first | exact hp.elim | exact id

theorem capacityFile.not_jobFile (hp : capacityFile p) : ¬ jobFile p := by
  cases p <;> first | exact hp.elim | exact id

theorem ledgerFile.not_jobFile (hkey : key.carriesCapacity = true) (hp : ledgerFile key p) :
    ¬ jobFile p := by
  rcases hp with hp | hp | rfl
  · exact hp.not_jobFile
  · exact hp.not_jobFile
  · cases key <;> first | exact id | cases hkey

theorem jobWriteFile.not_ledgerFile {jobId : DurableRecordId} (hkey : key.carriesCapacity = true)
    (hp : jobWriteFile jobId p) : ¬ ledgerFile key p := by
  rintro (hl | hl | rfl)
  · cases p <;> first | exact hl | simp [jobWriteFile, cleanupReceipt, derivedFile,
      membershipFile, schedulerFile, jobCopy] at hp
  · cases p <;> first | exact hl | simp [jobWriteFile, cleanupReceipt, derivedFile,
      membershipFile, schedulerFile, jobCopy] at hp
  · simp only [jobWriteFile, cleanupReceipt, derivedFile, membershipFile, schedulerFile, jobCopy,
      or_self, false_or, reduceCtorEq, Path.intent.injEq] at hp
    subst hp
    cases hkey

/-- A lease operation is under way: its intent is written, the lease files are on the way from
`T` to `T'` and the capacity pair among those of the transition; nothing else has changed since
`s₀`. -/
structure Tearing (I : TransitionIntent) (transition : LeaseCapacityTransition) (T T' : LeaseTable)
    (s₀ t : Store) : Prop where
  agree : Agree (ledgerFile I.key) s₀ t
  intent : t.read (.intent I.key) = some I
  moving : Files.Moving leaseFile T.file T'.file (fun _ => False) t
  pairs : HoldsAmong transition.pairs t

/-- A lease operation is over: the lease files are those of `U`, the pair counts it, and the
intent is gone. -/
structure Moved (key : IntentKey) (U : LeaseTable) (s₀ t : Store) : Prop where
  agree : Agree (ledgerFile key) s₀ t
  intent : t.read (.intent key) = none
  atRest : AtRest U t

namespace Tearing

variable {I : TransitionIntent} {transition : LeaseCapacityTransition} {T T' : LeaseTable}
  {s₀ s t : Store} {D : Path → Prop}

theorem moved (h : Tearing I transition T T' s₀ s) (ht : MovedFrom s T.file T'.file D t) :
    Tearing I transition T T' s₀ t := by
  refine ⟨h.agree.trans (ht.agree.mono fun p hp => .inl hp), ?_, ht.moving.forget, ?_⟩
  · rw [ht.agree _ (by simp [leaseFile]), h.intent]
  · obtain ⟨⟨a, ha, hra⟩, ⟨c, hc, hrc⟩⟩ := h.pairs
    exact ⟨⟨a, ha, by rw [ht.agree _ (by simp [leaseFile]), hra]⟩,
      ⟨c, hc, by rw [ht.agree _ (by simp [leaseFile]), hrc]⟩⟩

/-- The operation can be turned around at any time. -/
theorem movedBack (h : Tearing I transition T T' s₀ s) (ht : MovedFrom s T'.file T.file D t) :
    Tearing I transition T T' s₀ t := by
  obtain ⟨hagree, hmoving⟩ := ht
  exact h.moved (D := fun _ => False) ⟨hagree, hmoving.turn⟩

/-- The operation, seen from a later state that differs outside the ledger only. -/
theorem rebase {A : Path → Prop} (h : Tearing I transition T T' s₀ s) (hst : Agree A s t)
    (hA : ∀ p, A p → ¬ ledgerFile I.key p) : Tearing I transition T T' t t := by
  have hread : ∀ p, ledgerFile I.key p → t.read p = s.read p := fun p hp =>
    hst p fun hA' => hA p hA' hp
  refine ⟨Agree.refl _ t, ?_, h.moving.frame hst fun p hp hA' => hA p hA' (.inl hp), ?_⟩
  · rw [hread _ (.inr (.inr rfl)), h.intent]
  · obtain ⟨⟨a, ha, hra⟩, ⟨c, hc, hrc⟩⟩ := h.pairs
    exact ⟨⟨a, ha, (hread .capacityAggregate (.inr (.inl trivial))).trans hra⟩,
      ⟨c, hc, (hread .capacityCheckpoint (.inr (.inl trivial))).trans hrc⟩⟩

/-- A transition starts when its intent is written in a queue at rest. -/
theorem begin {pair : LeaseCapacityPair} (hfiles : ∀ p, leaseFile p → s.read p = T.file p)
    (hpair : HoldsPair pair s) (hbefore : transition.before = pair) :
    Tearing I transition T T' s (s.write (.intent I.key) I) := by
  have hkey : ledgerFile I.key (.intent I.key) := .inr (.inr rfl)
  refine ⟨agree_write hkey s I, read_write_self .., ?_, ?_⟩
  · refine Files.Moving.start fun p hp => ?_
    rw [read_write_ne _ ?_, hfiles p hp]
    rintro rfl
    exact hp
  · have hholds : HoldsPair pair (s.write (.intent I.key) I) :=
      ⟨by rw [read_write_ne _, hpair.1], by rw [read_write_ne _, hpair.2]⟩
    have hmem : pair ∈ transition.pairs := by simp [LeaseCapacityTransition.pairs, hbefore]
    exact ⟨⟨pair, hmem, hholds.1⟩, ⟨pair, hmem, hholds.2⟩⟩

variable {C : Store → Prop} {Q : Post Unit} {E : Post RelayError} {v : Supply}

/-- **The end of a lease operation.**  With the lease files of `U` in place, the capacity pair
of `U` is written and the intent removed. -/
theorem wp_commit {U : LeaseTable} {pair : LeaseCapacityPair} {target : TransitionTarget}
    {label : String} (h : Tearing I transition T T' s₀ s) (hbtw : transition.Between T T')
    (hsel : transition.select target = some pair) (hpair : pair.Exact U)
    (hfiles : ∀ p, leaseFile p → s.read p = U.file p)
    (hC : ∀ t, Tearing I transition T T' s₀ t → (∀ p, leaseFile p → t.read p = U.file p) → C t)
    (hC' : ∀ t, Moved I.key U s₀ t → C t)
    (hQ : ∀ t w, Moved I.key U s₀ t → Q () t w) :
    Prog.wp (applyLeaseCapacityTransition transition target label >>= fun _ =>
      unlink (.intent I.key)) C Q E s v := by
  have hlease : ∀ {t}, Agree capacityFile s t → ∀ p, leaseFile p → t.read p = s.read p :=
    fun ht p hp => ht p hp.not_capacityFile
  have hledger : ∀ {t}, Agree capacityFile s t → Agree (ledgerFile I.key) s₀ t :=
    fun ht => h.agree.trans (ht.mono fun p hp => .inr (.inl hp))
  have hkey : ledgerFile I.key (.intent I.key) := .inr (.inr rfl)
  rw [Prog.wp_bind]
  refine wp_applyLeaseCapacityTransition hbtw hsel h.pairs (fun t ht hamong => ?_)
    fun t ht hholds => ?_
  · refine hC t ⟨hledger ht, ?_, ?_, hamong⟩ fun p hp => by rw [hlease ht p hp, hfiles p hp]
    · rw [ht _ (by simp [capacityFile]), h.intent]
    · exact ⟨fun p hp => by rw [hlease ht p hp]; exact h.moving.between p hp, fun _ _ => False.elim⟩
  · have hend : Moved I.key U s₀ (t.unlink (.intent I.key)) := by
      refine ⟨(hledger ht).trans (agree_unlink hkey t),
        read_unlink_self .., ⟨fun p hp => ?_, pair, ⟨?_, ?_⟩, hpair⟩⟩
      · rw [read_unlink_ne ?_, hlease ht p hp, hfiles p hp]
        rintro rfl
        exact hp
      · rw [read_unlink_ne, hholds.1]
      · rw [read_unlink_ne, hholds.2]
    exact wp_unlink.2 ⟨hC' _ hend, hQ _ _ hend⟩

end Tearing

end ClioQueue
