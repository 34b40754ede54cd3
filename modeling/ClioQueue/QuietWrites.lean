/-
# Writes that the ledger does not see

Events, order entries, lineage edges, idempotency records, cancellation requests
and cleanup receipts are written beside the jobs, the leases and the journal.
`Quiet s t` says that only such files have changed, and that no job has lost its
index; `Quietly m` is the frame of a program that writes only them.
-/

import ClioQueue.Footprints

namespace ClioQueue

open Durable Durable.Prog

/-- The files that the invariants of jobs, leases and the journal speak about. -/
def watched : Path → Prop
  | .job _ | .jobActive _ | .jobQueued _ | .lease _ | .leaseByJob .. | .leaseIndex _
  | .leaseIdentityRef _ | .leaseEndpointRef .. | .leaseEndpointGuard .. | .leaseClusterKindRef ..
  | .leaseExpiryRef _ | .capacityAggregate | .capacityCheckpoint | .intent _ | .migrationState
  | .ownerSessionJob .. | .schedulerRefs .. | .schedulerProtection .. | .schedulerJob ..
  | .gatewaysBy .. => True
  | _ => False

/-- The watched files are the same, and the indexes of jobs are still there. -/
structure Quiet (s t : Store) : Prop where
  same : ∀ p, watched p → t.read p = s.read p
  indexes : ∀ id, (s.read (.jobIndex id)).isSome → (t.read (.jobIndex id)).isSome

namespace Quiet

variable {s t u : Store} {A : Path → Prop}

theorem refl (s : Store) : Quiet s s := ⟨fun _ _ => rfl, fun _ => id⟩

theorem trans (h : Quiet s t) (h' : Quiet t u) : Quiet s u :=
  ⟨fun p hp => (h'.same p hp).trans (h.same p hp), fun id hid => h'.indexes id (h.indexes id hid)⟩

theorem of_agree (hA : ∀ p, A p → ¬ watched p) (hA' : ∀ id, ¬ A (.jobIndex id))
    (h : Files.Agree A s t) : Quiet s t := by
  refine ⟨fun p hp => h p fun hp' => hA p hp' hp, fun id hid => ?_⟩
  rwa [h _ (hA' id)]

/-- A file that nothing watches is written. -/
theorem write {p : Path} (hp : ¬ watched p) (s : Store) (c : Content p) :
    Quiet s (s.write p c) := by
  refine ⟨fun q hq => Files.read_write_ne c fun heq => hp (heq ▸ hq), fun id hid => ?_⟩
  rw [Files.read_write]
  split
  · next heq =>
      subst heq
      rfl
  · exact hid

end Quiet

/-- A program that changes quiet files only, wherever it stops. -/
structure Quietly {α : Type} (m : Op α) : Prop where
  within : Prog.Within Quiet m

namespace Quietly

variable {α β : Type} {A : Path → Prop}

theorem ofConfined {m : Op α} (hA : ∀ p, A p → ¬ watched p) (hA' : ∀ id, ¬ A (.jobIndex id))
    (h : Confined A m) : Quietly m :=
  ⟨fun _ _ => h.wp (fun _ => .of_agree hA hA') (fun _ _ _ => .of_agree hA hA')
    fun _ _ _ => .of_agree hA hA'⟩

theorem ofReadOnly {m : Op α} (h : m.ReadOnly) : Quietly m :=
  ⟨fun s _ => h.wp (fun _ _ => .refl s) fun _ _ => .refl s⟩

theorem pure (a : α) : Quietly (Pure.pure a : Op α) := ⟨within_pure Quiet.refl a⟩

theorem require (b : Bool) (e : RelayError) : Quietly (require b e : Op Unit) :=
  ⟨within_require Quiet.refl b e⟩

theorem ite {p : Prop} [Decidable p] {m₁ m₂ : Op α} (h₁ : Quietly m₁) (h₂ : Quietly m₂) :
    Quietly (if p then m₁ else m₂) :=
  ⟨within_ite h₁.within h₂.within⟩

theorem bind {m : Op α} {f : α → Op β} (hm : Quietly m) (hf : ∀ a, Quietly (f a)) :
    Quietly (m >>= f) :=
  ⟨within_bind (R := Quiet) (fun _ _ _ h h' => h.trans h') hm.within fun a => (hf a).within⟩

theorem put {p : Path} (hp : ¬ watched p) (c : Content p) : Quietly (ClioQueue.put p c) :=
  ⟨within_durably fun s => .write hp s c⟩

theorem putWithin {p : Path} (fits : Bool) (hp : ¬ watched p) (c : Content p) :
    Quietly (ClioQueue.putWithin fits p c) :=
  .bind (.require _ _) fun _ => .put hp c

/-- A quiet program inside a weakest precondition. -/
theorem wp {m : Op α} (h : Quietly m) {s : Store} {v : Supply} {C : Store → Prop}
    {Q : Post α} {E : Post RelayError}
    (hC : ∀ t, Quiet s t → C t) (hQ : ∀ a t w, Quiet s t → Q a t w)
    (hE : ∀ e t w, Quiet s t → E e t w) : wp m C Q E s v :=
  h.within.wp hC hQ hE

end Quietly

/-! ### Families beside the watched files -/

theorem keyFile.not_watched (p : Path) (h : keyFile p) : ¬ watched p := by
  cases p <;> first | exact h.elim | exact id

theorem cancelFile.not_watched (p : Path) (h : cancelFile p) : ¬ watched p := by
  cases p <;> first | exact h.elim | exact id

theorem lineageFile.not_watched (p : Path) (h : lineageFile p) : ¬ watched p := by
  cases p <;> first | exact h.elim | exact id

theorem cleanupReceipt.not_watched (p : Path) (h : cleanupReceipt p) : ¬ watched p := by
  cases p <;> first | exact h.elim | exact id

/-! ### Orders and events -/

theorem quiet_ensureGlobal (family : GlobalFamily) (recordId : DurableRecordId) :
    Quietly (ensureGlobal family recordId) := by
  refine .ofConfined (fun p hp => ?_) (fun _ => id) (confined_ensureGlobal family recordId)
  cases p <;> first | exact hp.elim | exact id

theorem quiet_updateJobIndex (jobId : DurableRecordId) (update : JobIndex → JobIndex) :
    Quietly (updateJobIndex jobId update) := by
  refine .bind (.ofReadOnly (readOnly_read _)) fun found => ?_
  rcases found with _ | _
  · exact .pure _
  · exact .put id _

/-- **The sequence of a new event**: the first free one after the head of the log. -/
theorem wp_nextEventSeq_first {C : Store → Prop} {Q : Post Nat}
    {E : Post RelayError} {s : Store} {v : Supply} {jobId : DurableRecordId}
    (hQ : ∀ head seq, (head = 0 ∨ ∃ index, s.read (.jobIndex jobId) = some index ∧
        head = index.latestEventSeq) → head < seq → s.read (.event jobId seq) = none →
      (∀ k, head < k → k < seq → (s.read (.event jobId k)).isSome) → Q seq s v)
    (hE : ∀ err, E err s v) : wp (nextEventSeq jobId) C Q E s v := by
  have hfree : ∀ head seq, (head = 0 ∨ ∃ index, s.read (.jobIndex jobId) = some index ∧
      head = index.latestEventSeq) →
      firstFreeEventSeq s jobId (head + 1) defaultExactRecordLimit = some seq → Q seq s v := by
    intro head seq hhead hfound
    have hmem := List.mem_of_find?_eq_some hfound
    have hnone := List.find?_some hfound
    rw [List.mem_range'_1] at hmem
    refine hQ head seq hhead hmem.1 (Option.isNone_iff_eq_none.1 hnone) fun k hk hlt => ?_
    obtain ⟨-, before, after, hlist, hbefore⟩ := List.find?_eq_some_iff_append.1 hfound
    have hsplit : k ∈ before := by
      have hrange : k ∈ before ++ seq :: after := by
        rw [← hlist, List.mem_range'_1]
        omega
      rcases List.mem_append.1 hrange with h | h
      · exact h
      · have hsort : (before ++ seq :: after).Pairwise (· < ·) := by
          rw [← hlist]
          exact List.pairwise_lt_range'
        rw [List.pairwise_append, List.pairwise_cons] at hsort
        rcases List.mem_cons.1 h with rfl | h
        · omega
        · have := hsort.2.1.1 k h
          omega
    have hk' := hbefore k hsplit
    rw [Bool.not_eq_eq_eq_not, Bool.not_true] at hk'
    rcases hread : s.read (.event jobId k) with _ | event
    · rw [hread] at hk'; cases hk'
    · rfl
  unfold nextEventSeq
  rw [read_eq_look, wp_bind, wp_look]
  rcases hidx : s.read (.jobIndex jobId) with _ | index
  · simp only [wp_bind, wp_look]
    split
    · next seq hfound => exact (wp_pure _).2 (hfree 0 seq (.inl rfl) hfound)
    · exact (wp_raise _).2 (hE _)
  · simp only [wp_bind, wp_look]
    split
    · next seq hfound =>
        exact (wp_pure _).2 (hfree _ seq (.inr ⟨index, hidx, rfl⟩) hfound)
    · exact (wp_raise _).2 (hE _)

section

variable [Platform] [Entropy]

theorem quiet_appendEventUnlocked (jobId : DurableRecordId) (eventType message : String)
    (payload : Dict) :
    Quietly (appendEventUnlocked jobId eventType message payload) :=
  .bind (.ofReadOnly (readOnly_nextEventSeq jobId)) fun _ =>
    .bind (.ofReadOnly readOnly_utcNow) fun _ =>
      .bind (.putWithin _ id _) fun _ =>
        .bind (quiet_updateJobIndex jobId _) fun _ => .pure _

/-- **An appended event** changes the log of its job, and keeps its index. -/
theorem wp_appendEventUnlocked {C : Store → Prop} {Q : Post RelayEvent}
    {E : Post RelayError} {s : Store} {v : Supply} {jobId : DurableRecordId}
    {eventType message : String} {payload : Dict}
    (hC : ∀ t, Files.Agree (eventFile jobId) s t → Quiet s t → C t)
    (hQ : ∀ event t w, Files.Agree (eventFile jobId) s t → Quiet s t → Q event t w)
    (hE : ∀ err t w, Files.Agree (eventFile jobId) s t → Quiet s t → E err t w) :
    wp (appendEventUnlocked jobId eventType message payload) C Q E s v := by
  have hconfined := (confined_appendEventUnlocked jobId eventType message payload).within s v
  have hquiet := (quiet_appendEventUnlocked jobId eventType message payload).within s v
  exact wp_mono (wp_and hconfined hquiet) (fun t ht => hC t ht.1 ht.2)
    (fun event t w ht => hQ event t w ht.1 ht.2) fun err t w ht => hE err t w ht.1 ht.2

theorem quiet_ensureJobQueuedEvent (job : RelayJob) : Quietly (ensureJobQueuedEvent job) :=
  .bind (.ofReadOnly (readOnly_present _)) fun _ =>
    .ite (.pure _) (.bind (quiet_updateJobIndex _ _) fun _ =>
      .bind (quiet_appendEventUnlocked ..) fun _ => .pure _)

/-! ### Admission records and lineage edges -/

theorem quiet_writeCommittedIdempotencyRecord (job : RelayJob) (digest : JobDigest) :
    Quietly (writeCommittedIdempotencyRecord job digest) :=
  .ofConfined keyFile.not_watched (fun _ => id) (confined_writeCommittedIdempotencyRecord job digest)

theorem quiet_ensureRequestedCancellation (job : RelayJob) :
    Quietly (ensureRequestedCancellation job) :=
  .ofConfined cancelFile.not_watched (fun _ => id) (confined_ensureRequestedCancellation job)

theorem quiet_jobHasPendingExecutionCleanupAfterMigration (cluster : String)
    (jobId : DurableRecordId) :
    Quietly (jobHasPendingExecutionCleanupAfterMigration cluster jobId) :=
  .ofConfined cleanupReceipt.not_watched (fun _ => id)
    (confined_jobHasPendingExecutionCleanupAfterMigration cluster jobId)

omit [Entropy]

theorem quiet_writeIdempotencyRecord (record : IdempotencyRecord) :
    Quietly (writeIdempotencyRecord record) :=
  .putWithin _ id _

theorem quiet_artifactUseRecords (job : RelayJob) (allocateSequences : Bool) :
    Quietly (artifactUseRecords job allocateSequences) :=
  .ofConfined lineageFile.not_watched (fun _ => id) (confined_artifactUseRecords job allocateSequences)

theorem quiet_ensureArtifactUseIndexes (job : RelayJob) : Quietly (ensureArtifactUseIndexes job) :=
  .ofConfined lineageFile.not_watched (fun _ => id) (confined_ensureArtifactUseIndexes job)

end

end ClioQueue
