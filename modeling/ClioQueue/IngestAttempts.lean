/-
# The effects of an ingest, exactly once

A job announces its input artifact and its success by one event each.  The announcement
is guarded by a look at the log, but only as far as the index of the job knows it, so an
announcing event must not lie beyond the index head (`Noted.seen`).  `IngestLog` says so
of both events, and that a job that has succeeded has announced both.
-/

import ClioQueue.IngestSteps

namespace ClioQueue

open Durable Durable.Prog Durable.Files

/-! ### Announcements -/

/-- The index head of a job's log. -/
def logHead (jobId : DurableRecordId) (s : Store) : Nat :=
  ((s.read (.jobIndex jobId)).map JobIndex.latestEventSeq).getD 0

/-- The log has a wanted event at the sequence. -/
def Occurs (s : Store) (jobId : DurableRecordId) (wanted : RelayEvent → Bool) (k : Nat) : Prop :=
  ∃ event, s.read (.event jobId k) = some event ∧ wanted event = true

/-- The log has exactly one wanted event. -/
def OccursOnce (s : Store) (jobId : DurableRecordId) (wanted : RelayEvent → Bool) : Prop :=
  ∃! k, Occurs s jobId wanted k

/-- The event of the input artifact. -/
def announcesInput [Platform] (jobId : DurableRecordId) : RelayEvent → Bool :=
  announcesArtifact (Platform.deterministicInputArtifactId jobId)

/-- The event of the success. -/
def announcesSuccess (event : RelayEvent) : Bool := event.eventType == "job.succeeded"

/-- The index knows every wanted event, and there is at most one. -/
structure Noted (s : Store) (jobId : DurableRecordId) (wanted : RelayEvent → Bool) : Prop where
  seen : ∀ k, Occurs s jobId wanted k → 1 ≤ k ∧ k ≤ logHead jobId s
  unique : ∀ k k', Occurs s jobId wanted k → Occurs s jobId wanted k' → k = k'

/-- The journal holds job synchronisations only. -/
def JobSyncs (s : Store) : Prop :=
  ∀ key I, s.read (.intent key) = some I → ∃ id at', key = .jobSync id ∧ I = .jobSync id at'

/-- **The announcements of a job**, and the attempts that may run. -/
structure IngestLog [Platform] (allowed : DurableRecordId → Prop) (jobId : DurableRecordId)
    (s : Store) : Prop where
  syncs : JobSyncs s
  input : Noted s jobId (announcesInput jobId)
  success : Noted s jobId announcesSuccess
  done : ∀ job, s.read (.job jobId) = some job → job.state = .succeeded →
    (∃ k, Occurs s jobId (announcesInput jobId) k) ∧ ∃ k, Occurs s jobId announcesSuccess k
  running : ∀ job attemptId, s.read (.job jobId) = some job → job.RunsAttempt attemptId →
    allowed attemptId

/-- The files that the announcements of a job depend on. -/
def announcementFile (jobId : DurableRecordId) : Path → Prop
  | .job id | .event id _ | .jobIndex id => id = jobId
  | .intent _ => True
  | _ => False

section

variable {s t : Store} {jobId : DurableRecordId} {wanted : RelayEvent → Bool}

theorem Occurs.congr (h : ∀ k, t.read (.event jobId k) = s.read (.event jobId k)) (k : Nat) :
    Occurs t jobId wanted k ↔ Occurs s jobId wanted k := by
  unfold Occurs
  rw [h]

theorem Noted.grow (hs : Noted s jobId wanted)
    (hev : ∀ k, t.read (.event jobId k) = s.read (.event jobId k))
    (hhead : logHead jobId s ≤ logHead jobId t) : Noted t jobId wanted := by
  refine ⟨fun k hk => ?_, fun k k' hk hk' => ?_⟩
  · obtain ⟨_, _⟩ := hs.seen k ((Occurs.congr hev k).1 hk)
    omega
  · exact hs.unique k k' ((Occurs.congr hev k).1 hk) ((Occurs.congr hev k').1 hk')

theorem logHead_congr (h : t.read (.jobIndex jobId) = s.read (.jobIndex jobId)) :
    logHead jobId t = logHead jobId s := by
  unfold logHead
  rw [h]

variable [Platform] {allowed : DurableRecordId → Prop}

/-- **Beside the announcements**: the job may change as long as it has not succeeded. -/
theorem IngestLog.beside (hs : IngestLog allowed jobId s) (hsyncs : JobSyncs t)
    (hev : ∀ k, t.read (.event jobId k) = s.read (.event jobId k))
    (hhead : logHead jobId s ≤ logHead jobId t)
    (hjob : ∀ job, t.read (.job jobId) = some job → s.read (.job jobId) = some job ∨
      job.state ≠ .succeeded ∧ ∀ attemptId, job.RunsAttempt attemptId → allowed attemptId) :
    IngestLog allowed jobId t := by
  refine ⟨hsyncs, hs.input.grow hev hhead, hs.success.grow hev hhead,
    fun job hread hstate => ?_, fun job attemptId hread hruns => ?_⟩
  · rcases hjob job hread with hold | ⟨hnot, -⟩
    · obtain ⟨⟨k, hk⟩, k', hk'⟩ := hs.done job hold hstate
      exact ⟨⟨k, (Occurs.congr hev k).2 hk⟩, k', (Occurs.congr hev k').2 hk'⟩
    · exact absurd hstate hnot
  · rcases hjob job hread with hold | ⟨-, hallow⟩
    · exact hs.running job attemptId hold hruns
    · exact hallow attemptId hruns

theorem IngestLog.frame (hs : IngestLog allowed jobId s)
    (hst : ∀ p, announcementFile jobId p → t.read p = s.read p) : IngestLog allowed jobId t := by
  have hidx : t.read (.jobIndex jobId) = s.read (.jobIndex jobId) := hst (.jobIndex jobId) rfl
  refine hs.beside (fun key I hI => hs.syncs key I ?_) (fun k => hst (.event jobId k) rfl)
    (logHead_congr hidx).ge fun job hread => .inl ?_
  · rwa [hst (.intent key) trivial] at hI
  · rwa [hst (.job jobId) rfl] at hread

/-- A program that works beside the announcements. -/
theorem IngestLog.wp_beside {α : Type} {A : Path → Prop} {m : Op α} {v : Supply}
    (hs : IngestLog allowed jobId s) (hm : Confined A m) (hA : ∀ p, A p → ¬ announcementFile jobId p) :
    Leaves (IngestLog allowed jobId) m s v := by
  have hkept : ∀ t, Agree A s t → IngestLog allowed jobId t := fun t ht =>
    hs.frame fun p hp => ht p fun hAp => hA p hAp hp
  exact hm.wp hkept (fun _ t _ ht => hkept t ht) fun _ t _ ht => hkept t ht

end

/-! ### The journal -/

/-- The files derived from jobs. -/
def jobSyncFile (p : Path) : Prop := membershipFile p ∨ schedulerFile p ∨ copyFile p

theorem derivedFile.jobSyncFile {jobId : DurableRecordId} {p : Path} (h : derivedFile jobId p) :
    jobSyncFile p := by
  rcases h with h | h | h
  · exact .inl h
  · exact .inr (.inl h)
  · refine .inr (.inr ?_)
    cases p <;> first | exact h.elim | trivial

/-- What a replay of job synchronisations can do. -/
structure JobSyncStep (s t : Store) : Prop where
  agree : Agree (fun p => jobSyncFile p ∨ ∃ key, p = .intent key) s t
  intents : ∀ key, t.read (.intent key) = s.read (.intent key) ∨ t.read (.intent key) = none

theorem JobSyncStep.refl (s : Store) : JobSyncStep s s := ⟨Agree.refl _ s, fun _ => .inl rfl⟩

theorem JobSyncStep.trans (s t u : Store) (h : JobSyncStep s t) (h' : JobSyncStep t u) :
    JobSyncStep s u := by
  refine ⟨h.agree.trans h'.agree, fun key => ?_⟩
  rcases h'.intents key with hsame | hnone
  · rw [hsame]
    exact h.intents key
  · exact .inr hnone

theorem JobSyncStep.read {s t : Store} (h : JobSyncStep s t) {p : Path} (hp : ¬ jobSyncFile p)
    (hp' : ∀ key, p ≠ .intent key) : t.read p = s.read p :=
  h.agree p fun hor => hor.elim hp fun ⟨key, hkey⟩ => hp' key hkey

theorem JobSyncStep.syncs {s t : Store} (h : JobSyncStep s t) (hs : JobSyncs s) : JobSyncs t := by
  intro key I hI
  rcases h.intents key with hsame | hnone
  · exact hs key I (hsame ▸ hI)
  · rw [hnone] at hI
    cases hI

section

variable [Platform] [Entropy] {allowed : DurableRecordId → Prop} {s : Store} {v : Supply}
  {saved : ArtifactRef} {payload : Dict} {jobId : DurableRecordId} {seq : Nat}
  {E : Post RelayError} {wanted : RelayEvent → Bool} {job : RelayJob}
  {C : Store → Prop} {eventType message : String} {Q : Post Unit}

omit [Entropy] in
theorem confined_syncFound (job : Option RelayJob) : Confined jobSyncFile (match job with
    | none => pure ()
    | some job => syncJobDerived job) := by
  rcases job with _ | job
  · exact .pure _
  · exact (confined_syncJobDerived job).mono fun _ => derivedFile.jobSyncFile

omit [Entropy] in
/-- Replaying the sync of a job changes the files of such a sync only, and removes intents but adds
none. -/
theorem within_replayJobSync (jobId : DurableRecordId) :
    Within JobSyncStep (replayJobSync jobId) := by
  have hread : ReadOnly (readJob jobId) := readOnly_readJob jobId
  refine within_bind (R := JobSyncStep) JobSyncStep.trans
    (fun s _ => hread.wp (fun _ _ => .refl s) fun _ _ => .refl s) fun job => ?_
  refine within_bind (R := JobSyncStep) JobSyncStep.trans (fun s v => ?_) fun _ =>
    within_durably fun t => ?_
  · have hstep : ∀ t, Agree jobSyncFile s t → JobSyncStep s t := fun t ht =>
      ⟨ht.mono fun _ => .inl, fun key => .inl (ht _ (by
        rintro (h | h | h) <;> exact h))⟩
    exact (confined_syncFound job).wp hstep (fun _ t _ ht => hstep t ht) fun _ t _ ht => hstep t ht
  · have hagree : Agree (fun p => ∃ key, p = Path.intent key) t
        (t.unlink (.intent (.jobSync jobId))) := agree_unlink ⟨_, rfl⟩ t
    refine ⟨hagree.mono fun _ => .inr, fun key => ?_⟩
    by_cases heq : key = .jobSync jobId
    · subst heq
      exact .inr (read_unlink_self ..)
    · exact .inl (read_unlink_ne (by simpa using heq))

/-- **The replay of job synchronisations.** -/
theorem wp_replay_jobSyncs (hs : JobSyncs s) (hC : ∀ t, JobSyncStep s t → C t)
    (hQ : ∀ t w, JobSyncStep s t → Q () t w) (hE : ∀ err t w, JobSyncStep s t → E err t w) :
    wp recoverPendingTransitions C Q E s v := by
  unfold recoverPendingTransitions reconcileTransitionIntents
  rw [wp_bind, wp_bind]
  refine wp_boundedListing (fun _ => ?_) fun _ err => hE err s v (.refl s)
  have hloop : Within JobSyncStep (gather applyIntent
      ((s.collect intentsListed).insertionSort fun a b => a.order ≤ b.order)) := by
    refine within_gather JobSyncStep.refl JobSyncStep.trans _ fun I hI => ?_
    obtain ⟨p, c, hread, hc⟩ := Files.mem_collect.1 ((List.mem_insertionSort _).1 hI)
    cases p <;> cases hc
    obtain ⟨id, _, -, rfl⟩ := hs _ _ hread
    exact within_bind (R := JobSyncStep) JobSyncStep.trans (within_replayJobSync id) fun _ =>
      within_pure JobSyncStep.refl _
  exact hloop.wp hC (fun _ t w ht => (wp_pure _).2 (hQ t w ht)) hE

omit [Entropy] in
theorem IngestLog.replayed {t : Store} (hs : IngestLog allowed jobId s) (h : JobSyncStep s t) :
    IngestLog allowed jobId t := by
  have hidx : t.read (.jobIndex jobId) = s.read (.jobIndex jobId) :=
    h.read (by rintro (h | h | h) <;> exact h) (by simp)
  refine hs.beside (h.syncs hs.syncs)
    (fun k => h.read (by rintro (h | h | h) <;> exact h) (by simp)) (logHead_congr hidx).ge
    fun job hread => .inl ?_
  rwa [h.read (by rintro (h | h | h) <;> exact h) (by simp)] at hread

theorem IngestLog.wp_replay (hs : IngestLog allowed jobId s) :
    Leaves (IngestLog allowed jobId) recoverPendingTransitions s v :=
  wp_replay_jobSyncs hs.syncs (fun _ ht => hs.replayed ht) (fun _ _ ht => hs.replayed ht)
    fun _ _ _ ht => hs.replayed ht

/-! ### Looking for an event and appending one -/

section

omit [Platform] [Entropy]

/-- The loop over the sequences finds a wanted event or has seen them all. -/
theorem wp_findEvent {C : Store → Prop} {Q : Post Bool}
    {E : Post RelayError} {jobId : DurableRecordId}
    {wanted : RelayEvent → Bool} (hE : ∀ err, E err s v) :
    ∀ sequences : List Nat, (∀ found, (found = true ↔ ∃ k ∈ sequences, Occurs s jobId wanted k) →
      Q found s v) → wp (findEvent jobId wanted sequences) C Q E s v
  | [], hQ => (wp_pure _).2 (hQ false (by simp))
  | sequence :: sequences, hQ => by
      unfold findEvent
      rw [wp_bind, read_eq_look, wp_look]
      refine wp_require_then (fun _ => ?_) fun _ => hE _
      have hhere : (s.read (.event jobId sequence)).any wanted = true ↔
          Occurs s jobId wanted sequence := by
        unfold Occurs
        rcases s.read (.event jobId sequence) with _ | event
        · simp
        · simp
      refine wp_cases (fun hany => (wp_pure _).2 (hQ true ?_)) fun hnone => ?_
      · simp only [List.mem_cons, true_iff]
        exact ⟨sequence, .inl rfl, hhere.1 hany⟩
      · refine wp_findEvent hE sequences fun found hfound => hQ found ?_
        rw [hfound]
        simp only [List.exists_mem_cons_iff]
        exact ⟨.inr, fun h => h.resolve_left fun hoccurs => hnone (hhere.2 hoccurs)⟩

/-- **The look at the log** covers what the index knows. -/
theorem wp_eventExists {Q : Post Bool} (hnoted : Noted s jobId wanted)
    (hQ : ∀ found, (s.read (.jobIndex jobId)).isSome = true → (found = true ↔ ∃ k, Occurs s jobId wanted k) → Q found s v)
    (hE : ∀ err, E err s v) : wp (eventExists jobId wanted) C Q E s v := by
  unfold eventExists
  rw [wp_bind, read_eq_look, wp_look]
  rcases hidx : s.read (.jobIndex jobId) with _ | index
  · exact (wp_raise _).2 (hE _)
  · simp only
    refine wp_require_then (fun _ => wp_findEvent hE _ fun found hfound => ?_) fun _ => hE _
    refine hQ found (by rw [hidx]; rfl) (hfound.trans ⟨fun ⟨k, _, hk⟩ => ⟨k, hk⟩, ?_⟩)
    rintro ⟨k, hk⟩
    obtain ⟨_, _⟩ := hnoted.seen k hk
    have hhead : logHead jobId s = index.latestEventSeq := by
      unfold logHead
      rw [hidx]
      rfl
    exact ⟨k, List.mem_range'_1.2 (by omega), hk⟩

/-- The next sequence of a log is free and beyond its head. -/
theorem wp_nextEventSeq_beyond {Q : Post Nat}
    (hQ : ∀ seq, logHead jobId s < seq → s.read (.event jobId seq) = none → Q seq s v)
    (hE : ∀ err, E err s v) : wp (nextEventSeq jobId) C Q E s v := by
  have hfree : ∀ seq, firstFreeEventSeq s jobId (logHead jobId s + 1) defaultExactRecordLimit =
      some seq → Q seq s v := by
    intro seq hfound
    have hmem := List.mem_of_find?_eq_some hfound
    rw [List.mem_range'_1] at hmem
    have hnone := List.find?_some hfound
    exact hQ seq hmem.1 (Option.isNone_iff_eq_none.1 hnone)
  unfold nextEventSeq
  rw [read_eq_look, wp_bind, wp_look]
  unfold logHead at hfree
  rcases hidx : s.read (.jobIndex jobId) with _ | index
  all_goals
    rw [hidx] at hfree
    simp only [wp_bind, wp_look]
    split
    · next seq hfound => exact (wp_pure _).2 (hfree seq hfound)
    · exact (wp_raise _).2 (hE _)

end

omit [Entropy] in
/-- An event beyond the index head that announces nothing. -/
theorem IngestLog.event (hs : IngestLog allowed jobId s) (event : RelayEvent)
    (hfree : s.read (.event jobId seq) = none) (hinput : announcesInput jobId event = false)
    (hsucc : announcesSuccess event = false) :
    IngestLog allowed jobId (s.write (.event jobId seq) event) := by
  have hoccurs : ∀ wanted : RelayEvent → Bool, wanted event = false → ∀ k,
      Occurs (s.write (.event jobId seq) event) jobId wanted k ↔ Occurs s jobId wanted k := by
    intro wanted hwanted k
    unfold Occurs
    by_cases heq : k = seq
    · subst heq
      rw [read_write_self, hfree]
      simp [hwanted]
    · rw [read_write_ne _ (by simpa using heq)]
  have hhead : logHead jobId (s.write (.event jobId seq) event) = logHead jobId s :=
    logHead_congr (read_write_ne _)
  have hnoted : ∀ wanted : RelayEvent → Bool, wanted event = false → Noted s jobId wanted →
      Noted (s.write (.event jobId seq) event) jobId wanted := by
    intro wanted hwanted h
    refine ⟨fun k hk => ?_, fun k k' hk hk' => ?_⟩
    · rw [hhead]
      exact h.seen k ((hoccurs wanted hwanted k).1 hk)
    · exact h.unique k k' ((hoccurs wanted hwanted k).1 hk) ((hoccurs wanted hwanted k').1 hk')
  refine ⟨fun key I hI => hs.syncs key I ?_, hnoted _ hinput hs.input, hnoted _ hsucc hs.success,
    fun job hread hstate => ?_, fun job attemptId hread => hs.running job attemptId ?_⟩
  · rwa [read_write_ne _] at hI
  · rw [read_write_ne _] at hread
    obtain ⟨⟨k, hk⟩, k', hk'⟩ := hs.done job hread hstate
    exact ⟨⟨k, (hoccurs _ hinput k).2 hk⟩, k', (hoccurs _ hsucc k').2 hk'⟩
  · rwa [read_write_ne _] at hread

omit [Platform] [Entropy] in
theorem logHead_updateJobIndex {update : JobIndex → JobIndex}
    (hnone : s.read (.jobIndex jobId) = none → Q () s v)
    (hsome : ∀ index, s.read (.jobIndex jobId) = some index → C (s.write (.jobIndex jobId) (update index)) ∧ Q () (s.write (.jobIndex jobId) (update index)) v) :
    wp (updateJobIndex jobId update) C Q E s v := by
  unfold updateJobIndex
  rw [wp_bind, read_eq_look, wp_look]
  rcases hidx : s.read (.jobIndex jobId) with _ | index
  · exact (wp_pure _).2 (hnone hidx)
  · exact wp_put.2 (hsome index hidx)

omit [Entropy] in
/-- An index that is written with a head that is not behind. -/
theorem IngestLog.index (hs : IngestLog allowed jobId s) (index : JobIndex)
    (hhead : logHead jobId s ≤ index.latestEventSeq) :
    IngestLog allowed jobId (s.write (.jobIndex jobId) index) := by
  refine hs.beside (fun key I hI => hs.syncs key I ?_)
    (fun k => read_write_ne _) ?_ fun job hread => .inl ?_
  · rwa [read_write_ne _] at hI
  · show logHead jobId s ≤ logHead jobId (s.write (.jobIndex jobId) index)
    unfold logHead at hhead ⊢
    rw [read_write_self]
    exact hhead
  · rwa [read_write_ne _] at hread

/-- **An event that announces nothing** may be appended, and may be cut. -/
theorem IngestLog.wp_appendEvent {id : DurableRecordId} (hs : IngestLog allowed jobId s)
    (hinput : eventType ≠ "artifact.created") (hsucc : eventType ≠ "job.succeeded") :
    Leaves (IngestLog allowed jobId) (appendEventUnlocked id eventType message payload) s v := by
  by_cases hid : id = jobId
  · subst hid
    unfold Leaves appendEventUnlocked
    rw [wp_bind]
    refine wp_nextEventSeq_beyond (fun seq hbeyond hfree => ?_) fun _ => hs
    rw [wp_bind, wp_utcNow]
    simp only
    refine wp_putWithin_then (fun _ => ?_) fun _ => hs
    have hev := hs.event ⟨id, seq, eventType, message, Entropy.clock v.ticks, payload⟩
      hfree (by simp [announcesInput, announcesArtifact, hinput]) (by
        simp [announcesSuccess, hsucc])
    refine ⟨hev, ?_⟩
    rw [wp_bind]
    refine logHead_updateJobIndex (fun _ => (wp_pure _).2 hev) fun index hidx => ?_
    have hmoved := hev.index (index.setLatestEventSeq seq) (by
      rw [logHead_congr (read_write_ne _)]
      exact hbeyond.le)
    exact ⟨hmoved, (wp_pure _).2 hmoved⟩
  · refine hs.wp_beside (confined_appendEventUnlocked ..) fun p hp hwatched => hid ?_
    cases p <;> first | exact hp.elim | exact hwatched.elim | exact hp.symm.trans hwatched

/-! ### Writing the job -/

section

variable (hs : IngestLog allowed jobId s) (hstate : job.state ≠ .succeeded)
  (hallow : job.jobId = jobId → ∀ attemptId, job.RunsAttempt attemptId → allowed attemptId)

include hs hstate hallow

/-- **A job that has not succeeded** may be written, and may be cut. -/
theorem IngestLog.wp_writeJob :
    Leaves (IngestLog allowed jobId) (writeJob job) s v := by
  have hstep : ∀ t, Agree (jobWriteFile job.jobId) s t →
      (t.read (.job job.jobId) = s.read (.job job.jobId) ∨ t.read (.job job.jobId) = some job) →
      (∀ I, t.read (.intent (.jobSync job.jobId)) = some I →
        s.read (.intent (.jobSync job.jobId)) = some I ∨ I = .jobSync job.jobId job.updatedAt) →
      IngestLog allowed jobId t := by
    intro t hagree hjob hintent
    have hkept : ∀ p, ¬ cleanupReceipt p → ¬ derivedFile job.jobId p → p ≠ .job job.jobId →
        p ≠ .intent (.jobSync job.jobId) → t.read p = s.read p := by
      intro p h₁ h₂ h₃ h₄
      refine hagree p ?_
      rintro (h | h | h | h)
      · exact h₁ h
      · exact h₂ h
      · exact h₃ h
      · exact h₄ h
    refine hs.beside (fun key I hI => ?_) (fun k => hkept _ id (by
      rintro (h | h | h) <;> exact h) (by simp) (by simp)) (logHead_congr (hkept _ id (by
      rintro (h | h | h) <;> exact h) (by simp) (by simp))).ge fun found hfound => ?_
    · by_cases heq : key = .jobSync job.jobId
      · subst heq
        rcases hintent I hI with hold | rfl
        · exact hs.syncs _ I hold
        · exact ⟨_, _, rfl, rfl⟩
      · rw [hkept _ id (by rintro (h | h | h) <;> exact h) (by simp) (by simpa using heq)] at hI
        exact hs.syncs key I hI
    · by_cases heq : jobId = job.jobId
      · subst heq
        rcases hjob with hold | hnew
        · rw [hold] at hfound
          exact .inl hfound
        · rw [hnew] at hfound
          cases hfound
          exact .inr ⟨hstate, hallow rfl⟩
      · rw [hkept _ id (by rintro (h | h | h) <;> exact h) (by simpa using heq) (by simp)] at hfound
        exact .inl hfound
  have hwriting : ∀ t, JobWriting job s t → IngestLog allowed jobId t := by
    intro t ht
    refine hstep t ht.agree (ht.canonical.imp And.left And.left) fun I hI => ?_
    rcases ht.journal with hold | hnew
    · exact .inl (hold ▸ hI)
    · rw [hnew] at hI
      cases hI
      exact .inr rfl
  have hwritten : ∀ t, JobWritten job s t → IngestLog allowed jobId t := by
    intro t ht
    refine hstep t ht.agree (.inr ht.canonical) fun I hI => ?_
    rw [ht.intent] at hI
    cases hI
  refine ClioQueue.wp_writeJob hwriting hwritten (fun t w ht => hwritten t ht) ?_
  rintro _ t w - (rfl | ht)
  · exact hs
  · exact hwriting t ht

/-- A job is changed and an event follows that announces nothing. -/
theorem IngestLog.wp_change {α : Type} {a : α}
    (hinput : eventType ≠ "artifact.created") (hsucc : eventType ≠ "job.succeeded")
    (id : DurableRecordId) :
    Leaves (IngestLog allowed jobId) (writeJob job >>= fun _ => appendEventUnlocked id eventType message payload >>=
      fun _ => pure a) s v := by
  refine wp_then (hs.wp_writeJob hstate hallow) fun _ t w ht => ?_
  exact wp_then (ht.wp_appendEvent hinput hsucc) fun _ _ _ h => (wp_pure _).2 h

end

/-! ### Beginning and ending attempts -/

omit [Entropy] in
/-- The id of an attempt is the one of its record. -/
theorem inputIngestAttempt_id {fields : Dict} {attempt : InputIngestAttempt}
    (hget : job.metadata.get "input_ingest_attempt" = .obj fields)
    (h : inputIngestAttempt job = .ok (some attempt)) :
    Dict.get fields "attempt_id" = .str attempt.attemptId.value := by
  unfold inputIngestAttempt at h
  simp only [hget] at h
  split at h
  · cases h
  split at h
  · next attemptId startedAt outcome hid _ _ =>
      split at h
      · next found _ hval _ =>
          obtain ⟨_, -, h⟩ := except_bind_ok h
          obtain ⟨_, -, h⟩ := except_bind_ok h
          cases h
          rw [hid]
          by_cases hmatch : isDurableRecordId attemptId = true
          · rw [validateDurableRecordId, dif_pos hmatch] at hval
            rw [← Except.ok.inj hval]
          · rw [validateDurableRecordId, dif_neg hmatch] at hval
            split at hval
            · cases hval
            · split at hval <;> cases hval
      · cases h
      · cases h
  · cases h

omit [Entropy] in
/-- A job that was begun runs the attempt it was begun for. -/
theorem runsAttempt_begunJob {stored effective : InputArtifactIngestPolicy}
    {attemptId x : DurableRecordId} {now : Time}
    (h : (begunJob job stored effective attemptId now).RunsAttempt x) : x = attemptId := by
  obtain ⟨-, attempt, hatt, hruns⟩ := h
  have hget : (begunJob job stored effective attemptId now).metadata.get "input_ingest_attempt" =
      .obj [("schema_version", .str inputIngestAttemptSchema),
        ("attempt_id", .str attemptId.value), ("started_at", .str (Platform.isoformat now)),
        ("outcome", .str "running")] := by
    show (begunMetadata job.metadata stored effective attemptId now).get _ = _
    unfold begunMetadata
    simp only
    rw [Dict.get_set, if_pos rfl]
  rcases attempt with _ | attempt
  · cases hruns
  · have hid : Json.str attemptId.value = .str attempt.attemptId.value :=
      inputIngestAttempt_id hget hatt
    simp only [attemptRuns, Option.any_some, Bool.and_eq_true, beq_iff_eq] at hruns
    rw [← hruns.1]
    have hv : attempt.attemptId.value = attemptId.value := (Json.str.inj hid).symm
    obtain ⟨_, _⟩ := attemptId
    generalize attempt.attemptId = found at hv
    obtain ⟨_, _⟩ := found
    cases hv
    rfl

/-- **`begin_input_ingest`.** -/
theorem IngestLog.wp_beginInputIngest (hs : IngestLog allowed jobId s)
    (id attemptId : DurableRecordId) (policy : Option InputArtifactIngestPolicy)
    (hallow : id = jobId → allowed attemptId) :
    Leaves (IngestLog allowed jobId) (beginInputIngest id attemptId policy) s v := by
  unfold Leaves beginInputIngest
  refine wp_then hs.wp_replay fun _ t w ht => ?_
  refine wp_beginInputIngestUnlocked (fun _ _ => ht) (fun job spec _ hid _ _ => ?_) fun _ => ht
  unfold startInputIngest
  rcases inputArtifactIngestPolicy (job.metadata.get "input_ingest_policy") with _ | _
  · exact (wp_raise _).2 ht
  · simp only
    rw [wp_bind]
    refine (readOnly_assertInputIngestQuotaWith ..).wp (fun _ w => ?_) fun _ _ => ht
    rw [wp_bind, wp_utcNow]
    refine wp_require_then (fun _ => ?_) fun _ => ht
    refine ht.wp_change (by simp [begunJob]) (fun hsame x hruns => ?_) (by decide) (by decide) _
    rw [runsAttempt_begunJob hruns]
    exact hallow (hid.symm.trans hsame)

/-- **`fail_input_ingest`.** -/
theorem IngestLog.wp_failInputIngest (hs : IngestLog allowed jobId s)
    (id attemptId : DurableRecordId) (error : String) :
    Leaves (IngestLog allowed jobId) (failInputIngest id attemptId error) s v := by
  unfold Leaves failInputIngest
  refine wp_then hs.wp_replay fun _ t w ht => ?_
  refine wp_failInputIngestUnlocked (fun _ _ => ht) (fun job spec attempt _ _ _ _ _ _ _ => ?_)
    fun _ => ht
  unfold failAttempt
  rw [wp_bind, wp_utcNow]
  exact ht.wp_change (by simp [failedIngest]) (fun _ _ h => by cases h.1) (by decide) (by decide) _

/-- Abandoning stale ingests keeps the announcements of every job, by induction on the jobs that are
still to be looked at. -/
theorem IngestLog.wp_abandonFirst (cluster : String) (cutoff : Time) (limit : Nat) :
    ∀ (jobs recovered : List RelayJob) (s : Store) (v : Supply),
      IngestLog allowed jobId s → Leaves (IngestLog allowed jobId)
        (abandonFirst cluster cutoff limit jobs recovered) s v
  | [], _, _, _, hs => (wp_pure _).2 hs
  | indexed :: rest, recovered, s, v, hs => by
      unfold Leaves abandonFirst
      refine wp_cases (fun _ => (wp_pure _).2 hs) fun _ => ?_
      rw [wp_bind]
      refine wp_getJob_found (fun job _ _ => ?_) fun _ => hs
      refine wp_cases (fun _ => ?_) fun _ => wp_abandonFirst cluster cutoff limit rest _ s v hs
      rw [wp_bind]
      refine wp_mono (Q := fun _ t _ => IngestLog allowed jobId t) ?_ (fun _ h => h) (fun _ t w ht =>
        wp_abandonFirst cluster cutoff limit rest _ t w ht) fun _ _ _ h => h
      unfold abandonIngest
      rw [wp_bind, wp_utcNow]
      refine wp_ofExcept_then (fun existing _ => ?_) fun _ _ => hs
      rw [wp_bind]
      refine (readOnly_abandonedIdentity job existing).wp (fun identity w => ?_) fun _ _ => hs
      exact hs.wp_change (by simp [failedIngest]) (fun _ _ h => by cases h.1) (by decide) (by decide) _

/-- **`recover_abandoned_input_ingests`.** -/
theorem IngestLog.wp_recoverAbandonedInputIngests (hs : IngestLog allowed jobId s)
    (cluster : String) (staleBefore : Option Time) (limit : Int) :
    Leaves (IngestLog allowed jobId)
      (recoverAbandonedInputIngests cluster staleBefore limit) s v := by
  unfold recoverAbandonedInputIngests
  refine wp_require_then (fun _ => ?_) fun _ => hs
  rw [wp_bind]
  refine (readOnly_ingestCutoff staleBefore).wp (fun cutoff w => ?_) fun _ _ => hs
  refine wp_then hs.wp_replay fun _ t w ht => ?_
  unfold recoverAbandonedUnlocked
  refine wp_then (ht.wp_beside confined_repairActiveJobIndex ?_) fun _ u w hu => ?_
  · intro p hp
    cases p <;> first | exact hp.elim | exact id
  refine wp_then (hu.wp_beside confined_activeJobs ?_) fun active x w hx => ?_
  · intro p hp
    cases p <;> first | exact hp.elim | exact id
  exact IngestLog.wp_abandonFirst _ _ _ active [] x w hx

/-! ### The stages of the announcements -/

/-- The event that `reconcile_input_artifact` is about to write, if any. -/
def inputAnnouncement (spec : InputArtifactSpec) (saved : ArtifactRef) : Op (Option RelayEvent) := do
  let announced ← inputArtifactEventExists saved
  if announced then pure none
  else do
    let seq ← nextEventSeq saved.jobId
    let createdAt ← utcNow
    let event : RelayEvent :=
      { jobId := saved.jobId
        seq
        eventType := "artifact.created"
        message := s!"Input artifact indexed: {spec.logicalName}"
        createdAt
        payload := [("artifact_id", .str saved.artifactId.value), ("uri", .str saved.uri),
          ("kind", .str "input"), ("logical_name", .str spec.logicalName)] }
    require (Platform.eventFits event) (.conflict "record exceeds its byte limit")
    pure (some event)

/-- `reconcile_input_artifact` up to its event. -/
def reconcileBefore (artifact : ArtifactRef) (attemptId : Option DurableRecordId) :
    Op (ArtifactRef × Option RelayEvent) := do
  recoverPendingTransitions
  let ingest ← checkReconciliation artifact attemptId
  let saved ← saveInputArtifact artifact
  indexInputArtifact saved
  let event ← inputAnnouncement ingest.2 saved
  pure (saved, event)

/-- The event of `reconcile_input_artifact` and the index head. -/
def reconcileEvent : Option RelayEvent → Op Unit
  | none => pure ()
  | some event => do
    put (.event event.jobId event.seq) event
    updateJobIndex event.jobId (JobIndex.setLatestEventSeq event.seq)

/-- `complete_input_ingest` up to the record of the job. -/
def completeBefore (jobId : DurableRecordId) (attemptId : Option DurableRecordId) :
    Op (RelayJob × Bool) := do
  recoverPendingTransitions
  let ingest ← checkCompletion jobId attemptId
  if ingest.1.state == .queued || ingest.1.state == .running then do
    let metadata ← succeededMetadata ingest.1 ingest.2
    let now ← utcNow
    let succeeded := succeededIngest ingest.1 metadata now
    migrateExecutionCleanupShard succeeded.cluster (Platform.executionCleanupShard succeeded.jobId)
    writeTransitionIntent (.jobSync succeeded.jobId succeeded.updatedAt)
    require (Platform.jobFits succeeded) (.conflict "record exceeds its byte limit")
    pure (succeeded, true)
  else pure (ingest.1, false)

/-- The record of a completed job. -/
def recordSuccess (job : RelayJob) : Bool → Op Unit
  | false => pure ()
  | true => do
    put (.job job.jobId) job
    syncJobDerived job
    unlink (.intent (.jobSync job.jobId))

/-- The record of a completed job, and its event. -/
def completeEvent (completed : RelayJob × Bool) : Op Unit := do
  recordSuccess completed.1 completed.2
  announceIngest completed.1.jobId

/-- **The stages of `reconcile_input_artifact`.** -/
theorem reconcileInputArtifact_eq (artifact : ArtifactRef) (attemptId : Option DurableRecordId) :
    reconcileInputArtifact artifact attemptId =
      (reconcileBefore artifact attemptId >>= fun r => reconcileEvent r.2 >>= fun _ =>
        pure r.1) := by
  unfold reconcileInputArtifact reconcileInputArtifactUnlocked reconcileBefore
    announceInputArtifact inputAnnouncement appendEventUnlocked putWithin
  simp only [bind_assoc]
  congr 1
  funext _
  congr 1
  funext ingest
  congr 1
  funext saved
  congr 1
  funext _
  congr 1
  funext announced
  rcases announced with _ | _
  · simp only [bind_assoc, pure_bind, reconcileEvent, Bool.false_eq_true, if_false]
  · rfl

/-- **The stages of `complete_input_ingest`.** -/
theorem completeInputIngest_eq (jobId : DurableRecordId) (attemptId : Option DurableRecordId) :
    completeInputIngest jobId attemptId =
      (completeBefore jobId attemptId >>= fun r => completeEvent r >>= fun _ => pure r) := by
  unfold completeInputIngest completeInputIngestUnlocked completeBefore completeEvent
    succeedIngest writeJob putWithin
  simp only [bind_assoc]
  congr 1
  funext _
  congr 1
  funext ingest
  rcases hchg : (ingest.1.state == .queued || ingest.1.state == .running) with _ | _
  · simp only [pure_bind, recordSuccess, Bool.false_eq_true, if_false]
  · simp only [bind_assoc, pure_bind, recordSuccess, if_true]

/-! ### One announcement -/

omit [Platform] [Entropy] in
/-- The log with one more event, the index head on it. -/
theorem Occurs.append {event : RelayEvent} {index : JobIndex}
    (hfree : s.read (.event jobId seq) = none) (k : Nat) :
    Occurs ((s.write (.event jobId seq) event).write (.jobIndex jobId) index) jobId wanted k ↔
      k = seq ∧ wanted event = true ∨ Occurs s jobId wanted k := by
  unfold Occurs
  rw [read_write_ne _]
  by_cases heq : k = seq
  · subst heq
    rw [read_write_self, hfree]
    simp
  · rw [read_write_ne _ (by simpa using heq)]
    simp [heq]

omit [Platform] [Entropy] in
/-- **One more event**: wanted only if there was none. -/
theorem Noted.append {event : RelayEvent} {index : JobIndex} (hs : Noted s jobId wanted)
    (hbeyond : logHead jobId s < seq) (hfree : s.read (.event jobId seq) = none)
    (hidx : index.latestEventSeq = seq)
    (hfirst : wanted event = true → ∀ k, ¬ Occurs s jobId wanted k) :
    Noted ((s.write (.event jobId seq) event).write (.jobIndex jobId) index) jobId wanted := by
  have hhead : logHead jobId ((s.write (.event jobId seq) event).write (.jobIndex jobId) index) =
      seq := by
    unfold logHead
    rw [read_write_self]
    exact hidx
  refine ⟨fun k hk => ?_, fun k k' hk hk' => ?_⟩
  · rw [hhead]
    rcases (Occurs.append hfree k).1 hk with ⟨rfl, -⟩ | hold
    · omega
    · obtain ⟨_, _⟩ := hs.seen k hold
      omega
  · rcases (Occurs.append hfree k).1 hk with ⟨rfl, hwanted⟩ | hold
    · rcases (Occurs.append hfree k').1 hk' with ⟨rfl, -⟩ | hold'
      · rfl
      · exact absurd hold' (hfirst hwanted k')
    · rcases (Occurs.append hfree k').1 hk' with ⟨rfl, hwanted⟩ | hold'
      · exact absurd hold (hfirst hwanted k)
      · exact hs.unique k k' hold hold'

/-- The event of `reconcile_input_artifact`, as it is about to be written. -/
structure Announceable (s : Store) (event : RelayEvent) : Prop where
  beyond : logHead event.jobId s < event.seq
  free : s.read (.event event.jobId event.seq) = none
  indexed : (s.read (.jobIndex event.jobId)).isSome = true
  first : announcesInput event.jobId event = true →
    ∀ k, ¬ Occurs s event.jobId (announcesInput event.jobId) k
  created : event.eventType = "artifact.created"

section

omit [Entropy]

/-- **The event and the index head**, once both are written. -/
theorem IngestLog.wp_reconcileEvent {event : Option RelayEvent} (hs : IngestLog allowed jobId s)
    (hev : ∀ e, event = some e → e.jobId = jobId → Announceable s e) :
    wp (reconcileEvent event) (fun _ => True) (fun _ t _ => IngestLog allowed jobId t)
      (fun _ _ _ => True) s v := by
  rcases event with _ | event
  · exact (wp_pure _).2 hs
  · unfold reconcileEvent
    rw [wp_bind, wp_put]
    refine ⟨trivial, ?_⟩
    by_cases hid : event.jobId = jobId
    · have he := hev event rfl hid
      subst hid
      refine logHead_updateJobIndex (fun hnone => ?_) fun index _ => ⟨trivial, ?_⟩
      · rw [read_write_ne _] at hnone
        have hindexed := he.indexed
        rw [hnone] at hindexed
        cases hindexed
      · have hnot : announcesSuccess event = false := by
          simp [announcesSuccess, he.created]
        have hoccurs : ∀ {wanted : RelayEvent → Bool} {k}, Occurs s event.jobId wanted k →
            Occurs ((s.write (.event event.jobId event.seq) event).write
              (.jobIndex event.jobId) (index.setLatestEventSeq event.seq)) event.jobId wanted
              k := fun hk => (Occurs.append he.free _).2 (.inr hk)
        refine ⟨fun key I hI => hs.syncs key I ?_, hs.input.append he.beyond he.free rfl he.first,
          hs.success.append he.beyond he.free rfl (by simp [hnot]), fun job hread hstate => ?_,
          fun job attemptId hread => hs.running job attemptId ?_⟩
        · rwa [read_write_ne _, read_write_ne _] at hI
        · rw [read_write_ne _, read_write_ne _] at hread
          obtain ⟨⟨k, hk⟩, k', hk'⟩ := hs.done job hread hstate
          exact ⟨⟨k, hoccurs hk⟩, k', hoccurs hk'⟩
        · rwa [read_write_ne _, read_write_ne _] at hread
    · have hbeside : IngestLog allowed jobId (s.write (.event event.jobId event.seq) event) :=
        hs.frame fun p hp => read_write_ne _ (by
          rintro rfl
          exact hid hp)
      refine logHead_updateJobIndex (fun _ => hbeside) fun index _ => ⟨trivial, ?_⟩
      exact hbeside.frame fun p hp => read_write_ne _ (by
        rintro rfl
        exact hid hp)

/-- A copy of the artifact is beside the announcements. -/
theorem IngestLog.write {p : Path} {c : Content p} (hs : IngestLog allowed jobId s)
    (hp : ¬ announcementFile jobId p) : IngestLog allowed jobId (s.write p c) :=
  hs.frame fun q hq => read_write_ne _ (by rintro rfl; exact hp hq)

/-- Indexing an input artifact keeps the announcements of every job, wherever it stops, since it
appends no event. -/
theorem IngestLog.wp_indexInputArtifact (hs : IngestLog allowed jobId s) :
    Leaves (IngestLog allowed jobId) (indexInputArtifact saved) s v := by
  have hlinks : Confined (fun p => ¬ announcementFile jobId p)
      (initializeArtifactUserOrder saved.artifactId >>= fun _ => linkGatewaysForArtifact saved) :=
    .bind (.bind (confined_present _) fun _ => .ite (.pure _) (confined_put _ id)) fun _ =>
      .bind (confined_boundedListing ..) fun _ => .each _ fun _ _ => .ite (.pure _)
        (.bind (.ofExcept _) fun _ => .bind (confined_putWithin _ _ id) fun _ =>
          confined_putWithin _ _ id)
  unfold Leaves indexInputArtifact countInputArtifact
  rw [wp_bind]
  refine wp_boundedListing (fun _ => ?_) fun _ _ => hs
  refine wp_require_then (fun _ => ?_) fun _ => hs
  rw [wp_bind, read_eq_look, wp_look]
  refine wp_require_then (fun _ => ?_) fun _ => hs
  refine wp_putWithin_then (fun _ => ?_) fun _ => hs
  have hbyJob : IngestLog allowed jobId (s.write (.artifactByJob saved.jobId saved.artifactId) saved) :=
    hs.write id
  refine ⟨hbyJob, ?_⟩
  rw [wp_bind, read_eq_look, wp_look]
  refine wp_require_then (fun _ => ?_) fun _ => hbyJob
  refine wp_putWithin_then (fun _ => ?_) fun _ => hbyJob
  have hord : IngestLog allowed jobId ((s.write (.artifactByJob saved.jobId saved.artifactId)
      saved).write (.artifactOrder saved.jobId 1) saved) := hbyJob.write id
  refine ⟨hord, ?_⟩
  generalize (s.write (.artifactByJob saved.jobId saved.artifactId) saved).write
    (.artifactOrder saved.jobId 1) saved = m at hord ⊢
  rw [wp_bind, wp_bind, read_eq_look, wp_look]
  rcases hidx : m.read (.jobIndex saved.jobId) with _ | index
  · exact (wp_raise _).2 hord
  · simp only
    refine wp_require_then (fun _ => ?_) fun _ => hord
    refine wp_cases (fun _ => ?_) fun _ => (wp_pure _).2 (hord.wp_beside hlinks fun _ h => h)
    refine logHead_updateJobIndex (fun _ => hord.wp_beside hlinks fun _ h => h)
      fun found hfound => ?_
    have hcnt : IngestLog allowed jobId (m.write (.jobIndex saved.jobId)
        { found with artifactCount := 1 }) := by
      by_cases hid : saved.jobId = jobId
      · subst hid
        refine hord.index _ ?_
        unfold logHead
        rw [hfound]
        exact le_rfl
      · exact hord.write fun h => hid h
    exact ⟨hcnt, hcnt.wp_beside hlinks fun _ h => h⟩

end

/-- The event that is about to be written, if it is one of the job. -/
theorem IngestLog.wp_inputAnnouncement (hs : IngestLog allowed jobId s) (spec : InputArtifactSpec)
    (hart : saved.artifactId = Platform.deterministicInputArtifactId saved.jobId) :
    wp (inputAnnouncement spec saved) C
      (fun event t _ => IngestLog allowed jobId t ∧ ∀ e, event = some e → e.jobId = jobId →
        Announceable t e) (fun _ t _ => IngestLog allowed jobId t) s v := by
  have hlook : wp (inputArtifactEventExists saved) C
      (fun announced t _ => t = s ∧ (saved.jobId = jobId →
        (s.read (.jobIndex saved.jobId)).isSome = true ∧ (announced = true ↔
          ∃ k, Occurs s saved.jobId (announcesInput saved.jobId) k))) (fun _ t _ => t = s) s v := by
    by_cases hid : saved.jobId = jobId
    · have hnoted : Noted s saved.jobId (announcesArtifact saved.artifactId) := by
        rw [hart, hid]
        exact hs.input
      refine wp_eventExists hnoted (fun announced hindexed hann => ⟨rfl, fun _ =>
        ⟨hindexed, ?_⟩⟩) fun _ => rfl
      rw [hann, hart]
      rfl
    · exact (readOnly_eventExists ..).wp (fun _ _ => ⟨rfl, fun h => absurd h hid⟩) fun _ _ => rfl
  unfold inputAnnouncement
  rw [wp_bind]
  refine wp_mono hlook (fun _ h => h) ?_ ?_
  · rintro announced t w ⟨rfl, hann⟩
    refine wp_cases (fun _ => (wp_pure _).2 ⟨hs, fun _ h => (nomatch h)⟩) fun hnone => ?_
    rw [wp_bind]
    refine wp_nextEventSeq_beyond (fun seq hbeyond hfree => ?_) fun _ => hs
    rw [wp_bind, wp_utcNow]
    simp only
    refine wp_require_then (fun _ => (wp_pure _).2 ⟨hs, ?_⟩) fun _ => hs
    rintro e ⟨⟩ hid
    obtain ⟨hindexed, hiff⟩ := hann hid
    exact ⟨hbeyond, hfree, hindexed, fun _ k hk => hnone (hiff.2 ⟨k, hk⟩), rfl⟩
  · rintro _ t w rfl
    exact hs

/-- **`reconcile_input_artifact` up to its event**, and the event it is about to write. -/
theorem IngestLog.wp_reconcileBefore (hs : IngestLog allowed jobId s) (artifact : ArtifactRef)
    (attemptId : Option DurableRecordId) :
    wp (reconcileBefore artifact attemptId) (IngestLog allowed jobId)
      (fun r t _ => IngestLog allowed jobId t ∧ ∀ e, r.2 = some e → e.jobId = jobId → Announceable t e)
      (fun _ t _ => IngestLog allowed jobId t) s v := by
  unfold reconcileBefore
  refine wp_then hs.wp_replay fun _ t w ht => ?_
  rw [wp_bind]
  refine wp_checkReconciliation (fun job spec hjob => ?_) fun _ => ht
  have hrest : ∀ (saved : ArtifactRef) u x, IngestLog allowed jobId u →
      saved.artifactId = artifact.artifactId → saved.jobId = artifact.jobId →
      wp (do
        indexInputArtifact saved
        let event ← inputAnnouncement spec saved
        pure (saved, event)) (IngestLog allowed jobId)
        (fun r t _ => IngestLog allowed jobId t ∧ ∀ e, r.2 = some e → e.jobId = jobId → Announceable t e)
        (fun _ t _ => IngestLog allowed jobId t) u x := by
    intro saved u x hu hsame hname
    have hart : saved.artifactId = Platform.deterministicInputArtifactId saved.jobId := by
      rw [hsame, hname, hjob.artifactId, hjob.named]
    refine wp_then hu.wp_indexInputArtifact fun _ y z hy => ?_
    exact wp_then (hy.wp_inputAnnouncement spec hart) fun _ _ _ h => (wp_pure _).2 h
  rw [wp_bind]
  refine wp_saveInputArtifact (fun saved _ hsame hname => hrest saved t w ht hsame hname)
    (fun saved hsame hname _ => ?_) fun _ => ht
  have hsaved : IngestLog allowed jobId (t.write (.artifact saved.artifactId) saved) := ht.write id
  exact ⟨hsaved, hrest saved _ w hsaved hsame hname⟩

/-! ### The success -/

/-- **`complete_input_ingest` up to the record of the job.** -/
theorem IngestLog.wp_completeBefore (hs : IngestLog allowed jobId s) (id : DurableRecordId)
    (attemptId : Option DurableRecordId) :
    wp (completeBefore id attemptId) (IngestLog allowed jobId)
      (fun r t _ => IngestLog allowed jobId t ∧ r.1.jobId = id ∧
        (∀ k, t.read (.event jobId k) = s.read (.event jobId k)) ∧
        (r.2 = true → r.1.state = .succeeded))
      (fun _ t _ => IngestLog allowed jobId t) s v := by
  unfold completeBefore
  rw [wp_bind]
  refine wp_replay_jobSyncs hs.syncs (fun t ht => hs.replayed ht) (fun t w hstep => ?_)
    fun _ t _ ht => hs.replayed ht
  have ht := hs.replayed hstep
  have hev : ∀ k, t.read (.event jobId k) = s.read (.event jobId k) := fun k =>
    hstep.read (by rintro (h | h | h) <;> exact h) (by simp)
  rw [wp_bind]
  refine wp_checkCompletion (fun job attempt hjob => ?_) fun _ => ht
  refine wp_cases (fun _ => ?_) fun _ => (wp_pure _).2 ⟨ht, hjob.named, hev, fun h => (nomatch h)⟩
  have hmeta : ReadOnly (succeededMetadata job attempt) := by
    rcases attempt with _ | attempt
    · exact .pure _
    · exact .bind readOnly_utcNow fun _ => .pure _
  rw [wp_bind]
  refine hmeta.wp (fun metadata w => ?_) fun _ _ => ht
  rw [wp_bind, wp_utcNow]
  simp only
  rw [wp_bind]
  have hreceipt : ∀ p, cleanupReceipt p → ¬ announcementFile jobId p := by
    intro p hp
    cases p <;> first | exact hp.elim | exact fun h => h
  have hkept : ∀ u, Agree cleanupReceipt t u → IngestLog allowed jobId u := fun u hu =>
    ht.frame fun p hp => hu p fun h => hreceipt p h hp
  refine (confined_migrateExecutionCleanupShard ..).wp hkept (fun _ u x hu => ?_)
    fun _ u _ hu => hkept u hu
  unfold writeTransitionIntent
  rw [wp_bind, wp_bind, wp_utcNow, wp_put]
  have hintent : IngestLog allowed jobId (u.write (.intent (.jobSync job.jobId))
      (.jobSync job.jobId (Entropy.clock w.ticks))) := by
    refine (hkept u hu).beside (fun key I hI => ?_) (fun k => read_write_ne _)
      (logHead_congr (read_write_ne _)).ge fun found hfound => .inl ?_
    · by_cases heq : key = .jobSync job.jobId
      · subst heq
        rw [read_write_self] at hI
        cases hI
        exact ⟨_, _, rfl, rfl⟩
      · rw [read_write_ne _ (by simpa using heq)] at hI
        exact (hkept u hu).syncs key I hI
    · rwa [read_write_ne _] at hfound
  refine ⟨hintent, ?_⟩
  refine wp_require_then (fun _ => (wp_pure _).2 ⟨hintent, hjob.named, fun k => ?_, fun _ => rfl⟩)
    fun _ => hintent
  rw [← hev k, ← hu (.event jobId k) fun h => h]
  exact read_write_ne _ (by simp [TransitionIntent.key])

omit [Entropy] in
/-- The record of a job that has succeeded leaves the events. -/
theorem wp_recordSuccess {changed : Bool} (hC : ∀ t, C t) (hs : JobSyncs s) :
    wp (recordSuccess job changed) C
      (fun _ t _ => JobSyncs t ∧
        (∀ id, t.read (.job id) = s.read (.job id) ∨
          changed = true ∧ id = job.jobId ∧ t.read (.job id) = some job) ∧
        (∀ id k, t.read (.event id k) = s.read (.event id k)) ∧
        ∀ id, t.read (.jobIndex id) = s.read (.jobIndex id)) (fun _ _ _ => True) s v := by
  rcases changed with _ | _
  · exact (wp_pure _).2 ⟨hs, fun _ => .inl rfl, fun _ _ => rfl, fun _ => rfl⟩
  · unfold recordSuccess
    rw [wp_bind, wp_put]
    refine ⟨hC _, ?_⟩
    rw [wp_bind]
    refine (confined_syncJobDerived job).wp (fun t _ => hC t) (fun _ t w ht => ?_)
      fun _ _ _ _ => trivial
    have hkept : ∀ p, ¬ derivedFile job.jobId p → p ≠ .intent (.jobSync job.jobId) →
        (t.unlink (.intent (.jobSync job.jobId))).read p =
          (s.write (.job job.jobId) job).read p := by
      intro p h₁ h₂
      rw [read_unlink_ne h₂]
      exact ht p h₁
    refine wp_unlink.2 ⟨hC _, fun key I hI => ?_, fun id => ?_, fun id k => ?_, fun id => ?_⟩
    · by_cases heq : key = .jobSync job.jobId
      · subst heq
        rw [read_unlink_self] at hI
        cases hI
      · rw [hkept _ (by rintro (h | h | h) <;> exact h) (by simpa using heq), read_write_ne _] at hI
        exact hs key I hI
    · rw [hkept _ (by rintro (h | h | h) <;> exact h) (by simp)]
      by_cases heq : id = job.jobId
      · subst heq
        exact .inr ⟨rfl, rfl, read_write_self ..⟩
      · exact .inl (read_write_ne _ (by simpa using heq))
    all_goals
      rw [hkept _ (by rintro (h | h | h) <;> exact h) (by simp)]
      exact read_write_ne _

/-- The event of the success, written once. -/
theorem wp_announceIngest (hC : ∀ t, C t) (hsyncs : JobSyncs s)
    (hinput : Noted s jobId (announcesInput jobId)) (hsucc : Noted s jobId announcesSuccess)
    (hann : ∃ k, Occurs s jobId (announcesInput jobId) k)
    (hrun : ∀ job attemptId, s.read (.job jobId) = some job → job.RunsAttempt attemptId → allowed attemptId) :
    wp (announceIngest jobId) C (fun _ t _ => IngestLog allowed jobId t) (fun _ _ _ => True) s v := by
  unfold announceIngest
  rw [wp_bind]
  refine wp_eventExists hsucc (fun found hindexed hfound => ?_) fun _ => trivial
  rw [wp_ite]
  refine ⟨fun htrue => (wp_pure _).2 ⟨hsyncs, hinput, hsucc, fun _ _ _ =>
    ⟨hann, hfound.1 htrue⟩, hrun⟩, fun hnone => ?_⟩
  unfold appendEventUnlocked
  rw [wp_bind, wp_bind]
  refine wp_nextEventSeq_beyond (fun seq hbeyond hfree => ?_) fun _ => trivial
  rw [wp_bind, wp_utcNow]
  simp only
  refine wp_putWithin_then (fun _ => ⟨hC _, ?_⟩) fun _ => trivial
  rw [wp_bind]
  refine logHead_updateJobIndex (fun hnone => ?_) fun index _ => ⟨hC _, ?_⟩
  · rw [read_write_ne _] at hnone
    rw [hnone] at hindexed
    cases hindexed
  · refine (wp_pure _).2 ((wp_pure _).2 ⟨fun key I hI => hsyncs key I ?_,
      hinput.append hbeyond hfree rfl (by simp [announcesInput, announcesArtifact]),
      hsucc.append hbeyond hfree rfl fun _ k hk => hnone (hfound.2 ⟨k, hk⟩), fun _ _ _ => ?_,
      fun job attemptId hread => hrun job attemptId ?_⟩)
    · rwa [read_write_ne _, read_write_ne _] at hI
    · obtain ⟨k, hk⟩ := hann
      exact ⟨⟨k, (Occurs.append hfree k).2 (.inr hk)⟩, seq,
        (Occurs.append hfree seq).2 (.inl ⟨rfl, by simp [announcesSuccess]⟩)⟩
    · rwa [read_write_ne _, read_write_ne _] at hread

/-- **The record and the event of a completed job**, once both are written. -/
theorem IngestLog.wp_completeEvent {completed : RelayJob × Bool} (hs : IngestLog allowed jobId s)
    (hstate : completed.2 = true → completed.1.state = .succeeded)
    (hann : completed.1.jobId = jobId → ∃ k, Occurs s jobId (announcesInput jobId) k) :
    wp (completeEvent completed) (fun _ => True) (fun _ t _ => IngestLog allowed jobId t)
      (fun _ _ _ => True) s v := by
  unfold completeEvent
  refine wp_then (wp_recordSuccess (fun _ => trivial) hs.syncs) ?_
  rintro - t w ⟨hsyncs, hjobs, hevs, hindexes⟩
  have hhead : logHead jobId s ≤ logHead jobId t := (logHead_congr (hindexes jobId)).ge
  by_cases hid : completed.1.jobId = jobId
  · rw [hid]
    obtain ⟨k, hk⟩ := hann hid
    refine wp_announceIngest (fun _ => trivial) hsyncs (hs.input.grow (hevs jobId) hhead)
      (hs.success.grow (hevs jobId) hhead) ⟨k, (Occurs.congr (hevs jobId) k).2 hk⟩
      fun job attemptId hread hruns => ?_
    rcases hjobs jobId with hold | ⟨hchg, -, hnew⟩
    · rw [hold] at hread
      exact hs.running job attemptId hread hruns
    · rw [hnew] at hread
      cases hread
      have hrun := hruns.1
      rw [hstate hchg] at hrun
      cases hrun
  · have ht : IngestLog allowed jobId t := by
      refine hs.beside hsyncs (hevs jobId) hhead fun job hread => .inl ?_
      rcases hjobs jobId with hold | ⟨-, hsame, -⟩
      · rwa [hold] at hread
      · exact absurd hsame.symm hid
    have hev : Confined (eventFile completed.1.jobId) (announceIngest completed.1.jobId) :=
      .bind (.ofReadOnly (readOnly_eventExists ..)) fun _ => .ite (.pure _)
        (.bind (confined_appendEventUnlocked ..) fun _ => .pure _)
    refine wp_mono (ht.wp_beside hev fun p hp hwatched => hid ?_) (fun _ _ => trivial)
      (fun _ _ _ h => h) fun _ _ _ _ => trivial
    cases p <;> first | exact hp.elim | exact hwatched.elim | exact hp.symm.trans hwatched

end

end ClioQueue
