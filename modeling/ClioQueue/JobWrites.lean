/-
# Writing a job

What `write_job` leaves behind, wherever it stops: the canonical record is the old
or the new one, the queued copy is stale only while the job's intent is pending,
and nothing but the files of the job has changed.  It succeeds exactly when the
job is `Writable`.
-/

import ClioQueue.Derivability

namespace ClioQueue

open Durable Durable.Prog Durable.Files

/-- The files that a write of a job may change. -/
def jobWriteFile (jobId : DurableRecordId) (p : Path) : Prop :=
  cleanupReceipt p ∨ derivedFile jobId p ∨ p = .job jobId ∨ p = .intent (.jobSync jobId)

section

variable [Platform]

/-- The membership and the scheduler source of a job can be recorded. -/
structure Derivation (s : Store) (job : RelayJob) : Prop where
  membership : MembershipReady s job
  scheduler : ∃ state, metadataSchedulerGcState job.metadata = .ok state ∧
    SchedulerReady s job.jobId "job" state

/-- The indexes of a job can be derived. -/
structure Derivable (s : Store) (job : RelayJob) : Prop where
  derivation : Derivation s job
  fits : job.state.terminal = false → Platform.jobFits job = true

/-- The indexes of a job are being derived. -/
structure Deriving (job : RelayJob) (s t : Store) : Prop where
  agree : Agree (derivedFile job.jobId) s t
  queued : t.read (.jobQueued job.jobId) = s.read (.jobQueued job.jobId) ∨
    t.read (.jobQueued job.jobId) = none ∨
      (job.state = .queued ∧ t.read (.jobQueued job.jobId) = some job)
  members : ∀ p, membershipFile p → (s.read p).isSome → (t.read p).isSome
  refs : ∀ id source, id ≠ job.jobId →
    t.read (.schedulerRefs id source) = s.read (.schedulerRefs id source)
  ready : Derivation s job → Derivation t job

/-- The indexes of a job have been derived. -/
structure Derived (job : RelayJob) (s t : Store) : Prop extends Deriving job s t where
  settled : t.read (.jobQueued job.jobId) = if job.state = .queued then some job else none
  member : Member t job
  derivable : Derivable s job

end

section

variable [Platform] {C : Store → Prop} {Q : Post Unit}
  {E : Post RelayError} {s t u : Store} {v : Supply} {job : RelayJob}

theorem Deriving.refl (job : RelayJob) (s : Store) : Deriving job s s :=
  ⟨Agree.refl _ s, .inl rfl, fun _ _ h => h, fun _ _ _ => rfl, fun h => h⟩

theorem Deriving.membership (h : MembershipKept job s t) : Deriving job s t := by
  have hagree := h.agree
  refine ⟨hagree.mono fun p hp => .inl hp, .inl (hagree _ (by simp [membershipFile])),
    fun p _ => h.members p, fun id source _ => hagree _ (by simp [membershipFile]), fun hd => ?_⟩
  obtain ⟨state, hstate, hready⟩ := hd.scheduler
  exact ⟨hd.membership.kept h, state, hstate,
    hready.frame (fun _ _ _ => hagree _ (by simp [membershipFile]))
      (hagree _ (by simp [membershipFile]))⟩

theorem Deriving.scheduler {state : List String × Bool} (h : Deriving job s t)
    (hstate : metadataSchedulerGcState job.metadata = .ok state)
    (hu : SchedulerMoving job.jobId "job" state t u) : Deriving job s u := by
  have hagree := hu.agree
  refine ⟨h.agree.trans (hagree.mono fun p hp => .inr (.inl hp)), ?_, fun p hp hs => ?_,
    fun id source hne => ?_, fun hd => ?_⟩
  · rw [hagree _ (by simp [schedulerFile])]
    exact h.queued
  · rw [hagree p (by cases p <;> first | exact id | exact hp.elim)]
    exact h.members p hp hs
  · rw [hu.others id source (by simp [hne]), h.refs id source hne]
  · obtain ⟨hm, state', hstate', hready⟩ := h.ready hd
    obtain rfl : state = state' := Except.ok.inj (hstate.symm.trans hstate')
    exact ⟨hm.frame fun p hp => hagree p (by cases p <;> first | exact id | exact hp.elim), state,
      hstate, hready.moving hu⟩

theorem Deriving.copies (h : Deriving job s t) (hu : Agree (jobCopy job.jobId) t u)
    (hqueued : u.read (.jobQueued job.jobId) = t.read (.jobQueued job.jobId) ∨
      u.read (.jobQueued job.jobId) = none ∨
        (job.state = .queued ∧ u.read (.jobQueued job.jobId) = some job)) : Deriving job s u := by
  refine ⟨h.agree.trans (hu.mono fun p hp => .inr (.inr hp)), ?_, fun p hp hs => ?_,
    fun id source hne => ?_, fun hd => ?_⟩
  · rcases hqueued with hq | hq
    · rw [hq]
      exact h.queued
    · exact .inr hq
  · rw [hu p (by cases p <;> first | exact id | exact hp.elim)]
    exact h.members p hp hs
  · rw [hu _ (by simp [jobCopy]), h.refs id source hne]
  · obtain ⟨hm, state, hstate, hready⟩ := h.ready hd
    exact ⟨hm.frame fun p hp => hu p (by cases p <;> first | exact id | exact hp.elim), state,
      hstate, hready.frame (fun _ _ _ => hu _ (by simp [jobCopy])) (hu _ (by simp [jobCopy]))⟩

/-- **Deriving the indexes of a job.**  It succeeds exactly when the job is derivable, and a job
that was derivable stays so. -/
theorem wp_syncJobDerived (hC : ∀ t, Deriving job s t → C t)
    (hQ : ∀ t w, Derived job s t → Q () t w)
    (hE : ∀ err t w, ¬ Derivable s job → Deriving job s t → E err t w) :
    wp (syncJobDerived job) C Q E s v := by
  have hactiveCopy : jobCopy job.jobId (.jobActive job.jobId) := rfl
  have hqueuedCopy : jobCopy job.jobId (.jobQueued job.jobId) := rfl
  unfold syncJobDerived
  rw [wp_bind]
  refine wp_syncOwnerSessionJobMembership (fun t ht => hC t (.membership ht))
    (fun t hready ht => ?_) fun hnot err =>
      hE err s v (fun h => hnot h.derivation.membership) (.refl job s)
  have hmem := hready.member ht
  have hsame : SameGateways t s ∧ SameGateways s t := by
    have hagree := ht.agree
    exact ⟨fun r k i => (hagree _ (by simp [membershipFile])).symm,
      fun r k i => hagree _ (by simp [membershipFile])⟩
  have hrefs : t.read (.schedulerRefs job.jobId (stableRefToken ["job"])) =
      s.read (.schedulerRefs job.jobId (stableRefToken ["job"])) :=
    ht.agree _ (by simp [membershipFile])
  have ht := Deriving.membership ht
  rw [wp_bind]
  refine wp_syncSchedulerSource (fun state u hstate hu => hC u (ht.scheduler hstate hu))
    (fun state u w hstate hsched hu => ?_)
    (fun err herr => hE err t _ (fun h => ?_) ht)
    fun state err u w hstate hsched hu => hE err u w (fun h => hsched ?_) (ht.scheduler hstate hu)
  · have hsched : SchedulerReady s job.jobId "job" state := hsched.frame hsame.1 hrefs.symm
    have hmem : Member u job := hmem.mono fun p hp h => by
      rw [hu.agree p (by cases p <;> first | exact id | exact hp.elim)]
      exact h
    have hu := ht.scheduler hstate hu
    have hderivation : Derivation s job := ⟨hready, state, hstate, hsched⟩
    have hcopies : ∀ {x : Store}, Agree (jobCopy job.jobId) u x → Member x job := fun hx =>
      hmem.mono fun p hp h => by
        rw [hx p (by cases p <;> first | exact id | exact hp.elim)]
        exact h
    refine wp_cases (fun hterm => ?_) fun hactive => ?_
    · have hstate : job.state ≠ .queued := by
        intro h
        rw [h] at hterm
        cases hterm
      have m₁ := agree_unlink hactiveCopy u
      have m₂ := m₁.trans (agree_unlink hqueuedCopy _)
      have hend : Derived job s ((u.unlink (.jobActive job.jobId)).unlink (.jobQueued job.jobId)) :=
        ⟨hu.copies m₂ (.inr (.inl (read_unlink_self ..))),
          by rw [read_unlink_self, if_neg hstate], hcopies m₂, hderivation,
          fun h => by rw [hterm] at h; cases h⟩
      simp only [wp_bind, wp_unlink]
      exact ⟨hC _ (hu.copies m₁ (.inl read_unlink_ne)), hC _ hend.toDeriving, hQ _ _ hend⟩
    · have hactive : job.state.terminal = false := by simpa using hactive
      have m₁ := agree_write hactiveCopy u job
      have hmid := hu.copies m₁ (.inl (read_write_ne _))
      have hunfit : Platform.jobFits job = false → ¬ Derivable s job := fun hfits h => by
        rw [h.fits hactive] at hfits
        cases hfits
      refine wp_putWithin_then (fun hfits => ⟨hC _ hmid, ?_⟩)
        fun hfits => hE _ _ _ (hunfit hfits) hu
      refine wp_cases (fun hqueued => ?_) fun hqueued => ?_
      · have m₂ := m₁.trans (agree_write hqueuedCopy _ job)
        have hend : Derived job s ((u.write (.jobActive job.jobId) job).write
            (.jobQueued job.jobId) job) :=
          ⟨hu.copies m₂ (.inr (.inr ⟨hqueued, read_write_self ..⟩)),
            by rw [read_write_self, if_pos hqueued], hcopies m₂, hderivation, fun _ => hfits⟩
        rw [wp_putWithin]
        exact ⟨fun _ => ⟨hC _ hend.toDeriving, hQ _ _ hend⟩, fun h => hE _ _ _ (hunfit h) hmid⟩
      · have m₂ := m₁.trans (agree_unlink hqueuedCopy _)
        have hend : Derived job s ((u.write (.jobActive job.jobId) job).unlink
            (.jobQueued job.jobId)) :=
          ⟨hu.copies m₂ (.inr (.inl (read_unlink_self ..))),
            by rw [read_unlink_self, if_neg hqueued], hcopies m₂, hderivation,
            fun _ => hfits⟩
        rw [wp_unlink]
        exact ⟨hC _ hend.toDeriving, hQ _ _ hend⟩
  · obtain ⟨state, hstate, -⟩ := h.derivation.scheduler
    rw [hstate] at herr
    cases herr
  · obtain ⟨state', hstate', hready'⟩ := h.derivation.scheduler
    obtain rfl : state = state' := Except.ok.inj (hstate.symm.trans hstate')
    exact hready'.frame hsame.2 hrefs

/-! ### The canonical record -/

section

omit [Platform]

theorem derivedFile.not_intent {jobId : DurableRecordId} {key : IntentKey} :
    ¬ derivedFile jobId (.intent key) := by
  simp [derivedFile, membershipFile, schedulerFile, jobCopy]

theorem derivedFile.not_job {jobId id : DurableRecordId} : ¬ derivedFile jobId (.job id) := by
  simp [derivedFile, membershipFile, schedulerFile, jobCopy]

theorem cleanupReceipt.not_derivedFile {jobId : DurableRecordId} {p : Path}
    (hp : cleanupReceipt p) : ¬ derivedFile jobId p := by
  cases p <;> first | exact hp.elim | simp [derivedFile, membershipFile, schedulerFile, jobCopy]

end

/-- What is derivable depends on the memberships, the gateways and the manifest of the job. -/
theorem Derivation.frame {A : Path → Prop} (h : Derivation s job) (hst : Agree A s t)
    (hA : ∀ p, A p → ¬ derivedFile job.jobId p) (hgateways : ∀ r k i, ¬ A (.gatewaysBy r k i)) :
    Derivation t job := by
  obtain ⟨hm, state, hstate, hready⟩ := h
  refine ⟨hm.frame fun p hp => hst p fun hp' => hA p hp' (.inl hp), state, hstate,
    hready.frame (fun r k i => hst _ (hgateways r k i)) (hst _ fun hp => hA _ hp ?_)⟩
  exact .inr (.inl (by simp [schedulerFile]))

/-- A job can be written. -/
structure Writable (s : Store) (job : RelayJob) : Prop where
  cluster : job.cluster ≠ ""
  fits : Platform.jobFits job = true
  derivation : Derivation s job

/-- A job is being written: its canonical record is the old or the new one, and it is touched
only while the intent of the job is pending. -/
structure JobWriting (job : RelayJob) (s t : Store) : Prop where
  agree : Agree (jobWriteFile job.jobId) s t
  cluster : job.cluster ≠ ""
  canonical : t.read (.job job.jobId) = s.read (.job job.jobId) ∧
      t.read (.jobQueued job.jobId) = s.read (.jobQueued job.jobId) ∨
    t.read (.job job.jobId) = some job ∧ (t.read (.intent (.jobSync job.jobId))).isSome
  journal : t.read (.intent (.jobSync job.jobId)) = s.read (.intent (.jobSync job.jobId)) ∨
    t.read (.intent (.jobSync job.jobId)) = some (.jobSync job.jobId job.updatedAt)
  members : ∀ p, membershipFile p → (s.read p).isSome → (t.read p).isSome
  refs : ∀ id source, id ≠ job.jobId →
    t.read (.schedulerRefs id source) = s.read (.schedulerRefs id source)
  ready : Derivation s job → Derivation t job

/-- A job has been written. -/
structure JobWritten (job : RelayJob) (s t : Store) : Prop where
  agree : Agree (jobWriteFile job.jobId) s t
  writable : Writable s job
  canonical : t.read (.job job.jobId) = some job
  queued : t.read (.jobQueued job.jobId) = if job.state = .queued then some job else none
  intent : t.read (.intent (.jobSync job.jobId)) = none
  members : ∀ p, membershipFile p → (s.read p).isSome → (t.read p).isSome
  refs : ∀ id source, id ≠ job.jobId →
    t.read (.schedulerRefs id source) = s.read (.schedulerRefs id source)
  member : Member t job
  derivation : Derivation t job

variable [Entropy]

omit [Platform] in
theorem wp_migrateExecutionCleanupShard {cluster : String} {shard : Fin 256} (hcl : cluster ≠ "")
    (hC : ∀ t, Agree cleanupReceipt s t → C t)
    (hQ : ∀ t w, Agree cleanupReceipt s t → Q () t w) :
    wp (migrateExecutionCleanupShard cluster shard) C Q E s v := by
  obtain ⟨label, hlab⟩ : ∃ label, clusterLabel cluster = .ok label := by
    unfold clusterLabel labelKey filesystemKey
    rw [if_neg hcl]
    split <;> exact ⟨_, rfl⟩
  unfold migrateExecutionCleanupShard
  simp only [hlab, wp_bind, wp_ofExcept, Except.ok.injEq, forall_eq', reduceCtorEq,
    false_imp_iff, implies_true, and_true, wp_present, wp_ite, wp_pure, wp_utcNow, wp_put]
  refine ⟨fun _ => hQ s _ (Agree.refl _ s), fun _ => ?_⟩
  have hwrite := agree_write (A := cleanupReceipt) (p := Path.cleanupMigration label shard)
    trivial s (Entropy.clock v.ticks)
  exact ⟨hC _ hwrite, hQ _ _ hwrite⟩

/-- **A job write.**  It succeeds exactly when the job is writable; wherever it stops, the
journal knows of a record that its indexes do not describe yet. -/
theorem wp_writeJob (hC : ∀ t, JobWriting job s t → C t) (hC' : ∀ t, JobWritten job s t → C t)
    (hQ : ∀ t w, JobWritten job s t → Q () t w)
    (hE : ∀ err t w, ¬ Writable s job → t = s ∨ JobWriting job s t → E err t w) :
    wp (writeJob job) C Q E s v := by
  unfold writeJob
  rw [wp_bind]
  by_cases hcl : job.cluster = ""
  · simp only [migrateExecutionCleanupShard, clusterLabel, labelKey, filesystemKey, hcl,
      if_true, wp_bind, wp_ofExcept, reduceCtorEq, false_imp_iff, implies_true, true_and]
    exact fun _ _ => hE _ _ _ (fun h => h.cluster hcl) (.inl rfl)
  have hsync : jobWriteFile job.jobId (.intent (.jobSync job.jobId)) := .inr (.inr (.inr rfl))
  -- Until the canonical record is replaced, it and all it derives are the old ones.
  have hold : ∀ t, Agree (fun p => cleanupReceipt p ∨ p = .intent (.jobSync job.jobId)) s t →
      (t.read (.intent (.jobSync job.jobId)) = s.read (.intent (.jobSync job.jobId)) ∨
        t.read (.intent (.jobSync job.jobId)) = some (.jobSync job.jobId job.updatedAt)) →
      JobWriting job s t := fun t ht hj =>
    { agree := ht.mono fun p hp => hp.imp_right fun hp => .inr (.inr hp)
      cluster := hcl
      canonical := .inl ⟨ht _ (by simp [cleanupReceipt]), ht _ (by simp [cleanupReceipt])⟩
      journal := hj
      members := fun p hp hs => by
        rw [ht p (by cases p <;> first | exact hp.elim | simp [cleanupReceipt])]
        exact hs
      refs := fun _ _ _ => ht _ (by simp [cleanupReceipt])
      ready := fun h => h.frame ht (fun p hp => hp.elim cleanupReceipt.not_derivedFile
          fun hp => hp ▸ derivedFile.not_intent)
        fun _ _ _ => by simp [cleanupReceipt] }
  refine wp_migrateExecutionCleanupShard hcl (fun t ht => hC t (hold t (ht.mono fun p => .inl)
    (.inl (ht _ (by simp [cleanupReceipt]))))) fun t w ht => ?_
  have hintent : Agree (fun p => cleanupReceipt p ∨ p = .intent (.jobSync job.jobId)) s
      (t.write (.intent (.jobSync job.jobId)) (.jobSync job.jobId job.updatedAt)) :=
    (ht.mono fun p => .inl).trans
      (agree_write (p := Path.intent (.jobSync job.jobId)) (.inr rfl) t _)
  simp only [writeTransitionIntent, TransitionIntent.key, wp_bind, wp_utcNow, wp_put]
  have hpend : (t.write (.intent (.jobSync job.jobId))
      (TransitionIntent.jobSync job.jobId job.updatedAt)).read (.intent (.jobSync job.jobId)) =
        some (.jobSync job.jobId job.updatedAt) := read_write_self ..
  have hmid := hold _ hintent (.inr hpend)
  refine ⟨hC _ hmid, ?_⟩
  generalize t.write (.intent (.jobSync job.jobId))
    (TransitionIntent.jobSync job.jobId job.updatedAt) = m at hmid hpend hintent ⊢
  rw [wp_putWithin]
  refine ⟨fun hfits => ?_, fun hfits => hE _ _ _ (fun h => ?_) (.inr hmid)⟩
  swap
  · rw [h.fits] at hfits
    cases hfits
  have hwrite := agree_write (A := (· = Path.job job.jobId)) rfl m job
  have hback : ∀ {x y : Store}, Agree (· = Path.job job.jobId) x y → Derivation x job →
      Derivation y job := fun hxy h => h.frame hxy
    (fun p hp => by rw [hp]; exact derivedFile.not_job) fun _ _ _ => by simp
  have hcanon : (m.write (.job job.jobId) job).read (.job job.jobId) = some job :=
    read_write_self ..
  have hderiving : ∀ t, Deriving job (m.write (.job job.jobId) job) t → JobWriting job s t := by
    intro t ht
    refine ⟨hmid.agree.trans ((hwrite.mono fun p hp => .inr (.inr (.inl hp))).trans
      (ht.agree.mono fun p hp => .inr (.inl hp))), hcl, .inr ⟨?_, ?_⟩, .inr ?_,
      fun p hp hs => ?_, fun id source hne => ?_, fun h => ht.ready (hback hwrite (hmid.ready h))⟩
    · rw [ht.agree _ derivedFile.not_job, hcanon]
    · rw [ht.agree _ derivedFile.not_intent, read_write_ne _, hpend]
      rfl
    · rw [ht.agree _ derivedFile.not_intent, read_write_ne _, hpend]
    · refine ht.members p hp ?_
      rw [hwrite p (by cases p <;> first | exact hp.elim | simp)]
      exact hmid.members p hp hs
    · rw [ht.refs id source hne, hwrite _ (by simp), hmid.refs id source hne]
  refine ⟨hC _ (hderiving _ (.refl job _)), ?_⟩
  refine wp_syncJobDerived (fun t ht => hC t (hderiving t ht)) (fun t w ht => ?_)
    fun err t w hnot ht => hE err t w (fun h => hnot ⟨hback hwrite (hmid.ready h.derivation),
      fun _ => hfits⟩) (.inr (hderiving t ht))
  have hend : JobWritten job s (t.unlink (.intent (.jobSync job.jobId))) := by
    have ht' := hderiving t ht.toDeriving
    have hunlink := agree_unlink (A := (· = Path.intent (.jobSync job.jobId))) rfl t
    have hwritable : Writable s job := by
      refine ⟨hcl, hfits, ?_⟩
      refine ht.derivable.derivation.frame
        (A := fun p => p = .job job.jobId ∨ cleanupReceipt p ∨ p = .intent (.jobSync job.jobId))
        (fun p hp => ?_) (fun p hp => ?_) fun _ _ _ => by simp [cleanupReceipt]
      · rw [hwrite p fun h => hp (.inl h), hintent p fun h => hp (.inr h)]
      · rcases hp with rfl | hp | rfl
        · exact derivedFile.not_job
        · exact hp.not_derivedFile
        · exact derivedFile.not_intent
    refine ⟨ht'.agree.trans (agree_unlink hsync t), hwritable, ?_, ?_,
      read_unlink_self .., fun p hp hs => ?_, fun id source hne => ?_, ?_, ?_⟩
    · rw [read_unlink_ne, ht.agree _ derivedFile.not_job, hcanon]
    · rw [read_unlink_ne, ht.settled]
    · rw [hunlink p (by cases p <;> first | exact hp.elim | simp)]
      exact ht'.members p hp hs
    · rw [read_unlink_ne, ht'.refs id source hne]
    · refine ht.member.mono fun p hp h => ?_
      rw [hunlink p (by cases p <;> first | exact hp.elim | simp)]
      exact h
    · exact (ht'.ready hwritable.derivation).frame hunlink
        (fun p hp => by rw [hp]; exact derivedFile.not_intent) fun _ _ _ => by simp
  exact wp_unlink.2 ⟨hC' _ hend, hQ _ _ hend⟩

end

end ClioQueue
