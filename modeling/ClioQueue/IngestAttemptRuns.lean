/-
# Runs of ingest attempts

An attempt that has ended (failed, abandoned, succeeded or superseded) never runs again,
and a call with its id changes nothing.  The two events of a job are written exactly once
as long as no call ends between an announcement and what makes it known: a reconciliation
between its event and the index head, a completion between the record of the job and its
event.
-/

import ClioQueue.IngestAttempts
import ClioQueue.IngestQuotaRuns

namespace ClioQueue

variable {k : Nat} {s : Store}

open Durable Durable.Prog

/-! ### Calls -/

/-- The calls of the callers of ingest jobs, each with the id of its attempt, the recovery and
the replay. -/
inductive AttemptCall where
  | beginInputIngest (jobId attemptId : DurableRecordId)
      (policy : Option InputArtifactIngestPolicy)
  | failInputIngest (jobId attemptId : DurableRecordId) (error : String)
  | reconcileInputArtifact (artifact : ArtifactRef) (attemptId : DurableRecordId)
  | completeInputIngest (jobId attemptId : DurableRecordId)
  | recoverAbandonedInputIngests (cluster : String) (staleBefore : Option Time) (limit : Int)
  | replay

namespace AttemptCall

/-- The program of a call, its result dropped. -/
def prog [Platform] [Entropy] : AttemptCall → Op Unit
  | .beginInputIngest jobId attemptId policy =>
    ClioQueue.beginInputIngest jobId attemptId policy >>= fun _ => pure ()
  | .failInputIngest jobId attemptId error =>
    ClioQueue.failInputIngest jobId attemptId error >>= fun _ => pure ()
  | .reconcileInputArtifact artifact attemptId =>
    ClioQueue.reconcileInputArtifact artifact (some attemptId) >>= fun _ => pure ()
  | .completeInputIngest jobId attemptId =>
    ClioQueue.completeInputIngest jobId (some attemptId) >>= fun _ => pure ()
  | .recoverAbandonedInputIngests cluster staleBefore limit =>
    ClioQueue.recoverAbandonedInputIngests cluster staleBefore limit >>= fun _ => pure ()
  | .replay => recoverPendingTransitions

/-- The call is about an effect of the job and carries the id. -/
def Carries (call : AttemptCall) (jobId attemptId : DurableRecordId) : Prop :=
  match call with
  | .failInputIngest id attempt _ => id = jobId ∧ attempt = attemptId
  | .reconcileInputArtifact artifact attempt => artifact.jobId = jobId ∧ attempt = attemptId
  | .completeInputIngest id attempt => id = jobId ∧ attempt = attemptId
  | _ => False

/-- A new attempt of the job is not one of those that have ended. -/
def Distinct (call : AttemptCall) (jobId : DurableRecordId) (ended : Set DurableRecordId) : Prop :=
  match call with
  | .beginInputIngest id attemptId _ => id = jobId → attemptId ∉ ended
  | _ => True

end AttemptCall

section

variable [Platform]

/-- The attempt of the job that is running. -/
def RunningAttempt (s : Store) (jobId attemptId : DurableRecordId) : Prop :=
  ∃ job, s.read (.job jobId) = some job ∧ job.RunsAttempt attemptId

/-- The job has succeeded. -/
def IngestSucceeded (s : Store) (jobId : DurableRecordId) : Prop :=
  ∃ job, s.read (.job jobId) = some job ∧ job.state = .succeeded

/-- **At most one attempt runs.** -/
theorem RunningAttempt.unique {s : Store} {jobId a b : DurableRecordId}
    (ha : RunningAttempt s jobId a) (hb : RunningAttempt s jobId b) : a = b := by
  obtain ⟨job, hread, -, attempt, hatt, hruns⟩ := ha
  obtain ⟨_, hread', -, _, hatt', hruns'⟩ := hb
  rw [hread] at hread'
  cases hread'
  rw [hatt] at hatt'
  cases hatt'
  rcases attempt with _ | attempt
  · cases hruns
  · simp only [attemptRuns, Option.any_some, Bool.and_eq_true, beq_iff_eq] at hruns hruns'
    exact hruns.1.symm.trans hruns'.1

/-- The job, its artifact and its events. -/
structure SameIngestEffects (jobId : DurableRecordId) (s t : Store) : Prop where
  job : t.read (.job jobId) = s.read (.job jobId)
  artifact : t.read (.artifact (Platform.deterministicInputArtifactId jobId)) =
    s.read (.artifact (Platform.deterministicInputArtifactId jobId))
  events : ∀ k, t.read (.event jobId k) = s.read (.event jobId k)

variable [Entropy]

/-- The call did not end, by a stop or by an error, between an announcement and what makes it
known; a completion is called once the event of the artifact is in the log. -/
def AttemptCall.Uncut (call : AttemptCall) (s : Store) (v : Supply) (t : Store) : Prop :=
  match call with
  | .reconcileInputArtifact artifact attemptId =>
    t ∈ Prog.outside (reconcileBefore artifact (some attemptId))
      (fun r => reconcileEvent r.2) (fun r => (pure r.1 : Op ArtifactRef)) s v
  | .completeInputIngest jobId attemptId =>
    (∃ k, Occurs s jobId (announcesInput jobId) k) ∧
      t ∈ Prog.outside (completeBefore jobId (some attemptId)) completeEvent
        (fun r => (pure r : Op (RelayJob × Bool))) s v
  | _ => True

/-- A call that returns does not end between the two. -/
theorem AttemptCall.uncut_of_returns {call : AttemptCall} {s : Store} {v : Supply}
    (hann : ∀ id a, call = .completeInputIngest id a →
      ∃ k, Occurs s id (announcesInput id) k)
    (h : (∀ id a policy, call ≠ .beginInputIngest id a policy) →
      (call.prog.run s v).result.toBool = true) :
    call.Uncut s v (call.prog.run s v).store := by
  have hretd : ∀ {α : Type} {m : Op α},
      ((m >>= fun _ => (pure () : Op Unit)).run s v).result.toBool = true →
      (∃ a, (m.run s v).result = .ok a) ∧
        ((m >>= fun _ => (pure () : Op Unit)).run s v).store = (m.run s v).store := by
    intro α m hm
    rcases hres : ((m >>= fun _ => (pure () : Op Unit)).run s v).result with e | u
    · rw [hres] at hm
      cases hm
    · obtain ⟨a, ha⟩ := bind_ok hres
      exact ⟨⟨a, ha⟩, (run_bind ha).2⟩
  cases call with
  | reconcileInputArtifact artifact attemptId =>
    obtain ⟨⟨a, ha⟩, hstore⟩ := hretd (h fun _ _ _ => nofun)
    show ((ClioQueue.reconcileInputArtifact artifact (some attemptId) >>= fun _ =>
      pure ()).run s v).store ∈ _
    rw [hstore]
    rw [reconcileInputArtifact_eq] at ha ⊢
    exact store_mem_outside ha
  | completeInputIngest jobId attemptId =>
    obtain ⟨⟨a, ha⟩, hstore⟩ := hretd (h fun _ _ _ => nofun)
    refine ⟨hann _ _ rfl, ?_⟩
    show ((ClioQueue.completeInputIngest jobId (some attemptId) >>= fun _ =>
      pure ()).run s v).store ∈ _
    rw [hstore]
    rw [completeInputIngest_eq] at ha ⊢
    exact store_mem_outside ha
  | _ => exact trivial

end

/-- **A run of calls on the job**, with the attempts that have ended on the way.  Each call is
stopped after one of its durable writes or run to its end. -/
inductive AttemptRun [Platform] (jobId : DurableRecordId) (s₀ : Store) :
    Set DurableRecordId → Store → Prop where
  | start : AttemptRun jobId s₀ ∅ s₀
  | step {ended : Set DurableRecordId} {s t : Store} (entropy : Entropy) (call : AttemptCall)
      (v : Supply) : AttemptRun jobId s₀ ended s → call.Distinct jobId ended →
      call.Uncut s v t → t ∈ call.prog.halts s v →
      AttemptRun jobId s₀ (ended ∪ {a | RunningAttempt s jobId a ∧ ¬ RunningAttempt t jobId a}) t

/-- A store in which an ingest job is waiting and has announced nothing: the journal holds job
synchronisations only. -/
structure IngestWaiting [Platform] (jobId : DurableRecordId) (s : Store) : Prop where
  syncs : JobSyncs s
  input : ∀ k, ¬ Occurs s jobId (announcesInput jobId) k
  success : ∀ k, ¬ Occurs s jobId announcesSuccess k
  state : ¬ IngestSucceeded s jobId

section

variable [Platform] {s s₀ t : Store} {v : Supply} {jobId : DurableRecordId}
  {allowed : DurableRecordId → Prop}

theorem IngestWaiting.ingestLog (h : IngestWaiting jobId s) :
    IngestLog (fun a => a ∉ (∅ : Set DurableRecordId)) jobId s := by
  refine ⟨h.syncs, ⟨fun k hk => absurd hk (h.input k), fun k _ hk => absurd hk (h.input k)⟩,
    ⟨fun k hk => absurd hk (h.success k), fun k _ hk => absurd hk (h.success k)⟩,
    fun job hread hst => absurd ⟨job, hread, hst⟩ h.state, fun _ _ _ _ => ?_⟩
  exact Set.notMem_empty _

variable [Entropy]

/-- **One call keeps the announcements.** -/
theorem IngestLog.step {call : AttemptCall} (hs : IngestLog allowed jobId s)
    (hallow : ∀ id a policy, call = .beginInputIngest id a policy → id = jobId → allowed a)
    (huncut : call.Uncut s v t) (ht : t ∈ call.prog.halts s v) : IngestLog allowed jobId t := by
  cases call with
  | beginInputIngest id attemptId policy =>
    refine wp_halts ?_ hs t ht
    show wp (ClioQueue.beginInputIngest id attemptId policy >>= fun _ => pure ()) _ _ _ s v
    exact wp_then (hs.wp_beginInputIngest id attemptId policy (hallow _ _ _ rfl))
      fun _ _ _ h => (wp_pure _).2 h
  | failInputIngest id attemptId error =>
    refine wp_halts ?_ hs t ht
    show wp (ClioQueue.failInputIngest id attemptId error >>= fun _ => pure ()) _ _ _ s v
    exact wp_then (hs.wp_failInputIngest id attemptId error) fun _ _ _ h => (wp_pure _).2 h
  | recoverAbandonedInputIngests cluster staleBefore limit =>
    refine wp_halts ?_ hs t ht
    show wp (ClioQueue.recoverAbandonedInputIngests cluster staleBefore limit >>=
      fun _ => pure ()) _ _ _ s v
    exact wp_then (hs.wp_recoverAbandonedInputIngests cluster staleBefore limit)
      fun _ _ _ h => (wp_pure _).2 h
  | reconcileInputArtifact artifact attemptId =>
    refine wp_outside hs (wp_imp (hs.wp_reconcileBefore artifact (some attemptId))
      fun r u w hu => ⟨hu.1, ?_⟩) t huncut
    exact wp_mono (hu.1.wp_reconcileEvent hu.2) (fun _ _ => trivial)
      (fun _ x y hx => ⟨hx, (wp_pure _).2 hx⟩) fun _ _ _ _ => trivial
  | completeInputIngest id attemptId =>
    refine wp_outside hs (wp_imp (hs.wp_completeBefore id (some attemptId))
      fun r u w hu => ⟨hu.1, ?_⟩) t huncut.2
    obtain ⟨hlog, hid, hevs, hst⟩ := hu
    have hann : r.1.jobId = jobId → ∃ k, Occurs u jobId (announcesInput jobId) k := by
      intro hsame
      obtain ⟨k, hk⟩ := huncut.1
      rw [← hid, hsame] at hk
      exact ⟨k, (Occurs.congr hevs k).2 hk⟩
    exact wp_mono (hlog.wp_completeEvent hst hann) (fun _ _ => trivial)
      (fun _ x y hx => ⟨hx, (wp_pure _).2 hx⟩) fun _ _ _ _ => trivial
  | replay =>
    refine wp_halts ?_ hs t ht
    exact hs.wp_replay

omit [Entropy] in
theorem JobSyncStep.effects (h : JobSyncStep s t) : SameIngestEffects jobId s t :=
  ⟨h.read (by rintro (h | h | h) <;> exact h) (by simp),
    h.read (by rintro (h | h | h) <;> exact h) (by simp),
    fun _ => h.read (by rintro (h | h | h) <;> exact h) (by simp)⟩

/-- **A call with the id of an attempt that does not run** changes nothing. -/
theorem AttemptCall.Carries.unchanged {call : AttemptCall} {attemptId : DurableRecordId}
    (h : call.Carries jobId attemptId) (hs : JobSyncs s)
    (hended : ¬ RunningAttempt s jobId attemptId) (ht : t ∈ call.prog.halts s v) :
    SameIngestEffects jobId s t := by
  have hsame : SameIngestEffects jobId s s := ⟨rfl, rfl, fun _ => rfl⟩
  -- After the replay the attempt still does not run.
  have hafter : ∀ {u : Store} {job : RelayJob}, JobSyncStep s u →
      u.read (.job jobId) = some job → ¬ job.RunsAttempt attemptId := by
    intro u job hu hread hruns
    have heffects : SameIngestEffects jobId s u := hu.effects
    exact hended ⟨job, heffects.job.symm.trans hread, hruns⟩
  have hrepl : ∀ {α : Type} {k : Op α}, (∀ u w, JobSyncStep s u →
      Leaves (SameIngestEffects jobId s) k u w) →
      Leaves (SameIngestEffects jobId s)
        ((recoverPendingTransitions >>= fun _ => k) >>= fun _ => pure ()) s v := by
    intro α k hk
    unfold Leaves
    rw [wp_bind, wp_bind]
    refine wp_replay_jobSyncs hs (fun _ h => h.effects) (fun u w hu => ?_) fun _ _ _ h => h.effects
    exact wp_imp (hk u w hu) fun _ _ _ h => (wp_pure _).2 h
  refine wp_halts ?_ hsame t ht
  cases call with
  | failInputIngest =>
    obtain ⟨rfl, rfl⟩ := h
    refine hrepl fun u w hu => ?_
    refine wp_failInputIngestUnlocked (fun _ _ => hu.effects)
      (fun job spec found hread _ _ hst hfound hid hout => ?_) fun _ => hu.effects
    refine absurd ⟨hst, some found, hfound, ?_⟩ (hafter hu hread)
    simp [attemptRuns, hid, hout]
  | reconcileInputArtifact artifact attempt =>
    obtain ⟨rfl, rfl⟩ := h
    refine hrepl fun u w hu => ?_
    unfold Leaves reconcileInputArtifactUnlocked
    rw [wp_bind]
    refine wp_checkReconciliation (fun job spec hjob => ?_) fun _ => hu.effects
    exact absurd (hjob.attempt attempt rfl) (hafter hu hjob.read)
  | completeInputIngest id attempt =>
    obtain ⟨rfl, rfl⟩ := h
    refine hrepl fun u w hu => ?_
    unfold Leaves completeInputIngestUnlocked
    rw [wp_bind]
    refine wp_checkCompletion (fun job found hjob => ?_) fun _ => hu.effects
    exact absurd (hjob.runs attempt rfl) (hafter hu hjob.read)
  | beginInputIngest | recoverAbandonedInputIngests | replay => exact h.elim

end

section

variable [Platform] {s₀ t : Store} {jobId : DurableRecordId} {ended : Set DurableRecordId}

/-- **Along a run**: the announcements are kept, and only attempts that have not ended run. -/
theorem AttemptRun.ingestLog (h₀ : IngestWaiting jobId s₀) (h : AttemptRun jobId s₀ ended t) :
    IngestLog (fun a => a ∉ ended) jobId t := by
  induction h with
  | start => exact h₀.ingestLog
  | @step ended s t entropy call v _ hdist huncut ht ih =>
    have hlog : IngestLog (fun a => a ∉ ended) jobId t := by
      refine ih.step (fun id a policy hcall hid => ?_) huncut ht
      subst hcall
      exact hdist hid
    refine ⟨hlog.syncs, hlog.input, hlog.success, hlog.done, fun job a hread hruns hin => ?_⟩
    rcases hin with hin | hin
    · exact hlog.running job a hread hruns hin
    · exact hin.2 ⟨job, hread, hruns⟩

/-- **Attempts are fenced and announced exactly once.**  At most one attempt runs; a call with the
id of an attempt that has ended changes neither the job nor its artifact nor its events; and a job
that has succeeded has exactly one event of its input artifact and one of its success. -/
theorem ingest_attempts_exactly_once (h₀ : IngestWaiting jobId s₀)
    (h : AttemptRun jobId s₀ ended t) :
    (∀ a b, RunningAttempt t jobId a → RunningAttempt t jobId b → a = b) ∧
      (∀ a ∈ ended, ∀ (_ : Entropy) (call : AttemptCall) (v : Supply), call.Carries jobId a →
        ∀ u ∈ call.prog.halts t v, SameIngestEffects jobId t u) ∧
      (IngestSucceeded t jobId → OccursOnce t jobId (announcesInput jobId) ∧
        OccursOnce t jobId announcesSuccess) := by
  have hlog := h.ingestLog h₀
  refine ⟨fun a b ha hb => ha.unique hb, fun a ha _ call v hcarries u hu => ?_, ?_⟩
  · refine hcarries.unchanged hlog.syncs ?_ hu
    rintro ⟨job, hread, hruns⟩
    exact hlog.running job a hread hruns ha
  · rintro ⟨job, hread, hst⟩
    obtain ⟨⟨k, hk⟩, k', hk'⟩ := hlog.done job hread hst
    exact ⟨⟨k, hk, fun other hother => hlog.input.unique other k hother hk⟩,
      ⟨k', hk', fun other hother => hlog.success.unique other k' hother hk'⟩⟩

end

/-! ### Sample runs -/

/-- The job of the sample runs. -/
def sampleIngestId : DurableRecordId := ⟨"job_1", sampleIngest_job⟩

/-- The attempt of the sample runs. -/
def sampleAttemptId : DurableRecordId := ⟨"attempt_1", sampleIngest_attempt⟩

/-- The input artifact of the sample job. -/
def sampleInputArtifact : ArtifactRef where
  artifactId := sampleIngestId
  jobId := sampleIngestId
  sequence := none
  uri := "file:///input.dat"
  kind := "input"
  sizeBytes := some 60
  sha256 := some "00"
  createdAt := 0
  metadata := [("schema_version", .str "clio-relay.input-artifact.v1"),
    ("logical_name", .str "input.dat")]

/-- A caller begins its attempt, reconciles its artifact and completes its job. -/
def sampleAttemptCall : Fin 3 → AttemptCall
  | 0 => .beginInputIngest sampleIngestId sampleAttemptId none
  | 1 => .reconcileInputArtifact sampleInputArtifact sampleAttemptId
  | 2 => .completeInputIngest sampleIngestId sampleAttemptId

/-- The store and the result that a sample call leaves, stopped after so many writes. -/
def sampleAttempt (call : Fin 3) (writes : Nat) (s : Store) : Store :=
  (@AttemptCall.prog samplePlatform sampleEntropy (sampleAttemptCall call)).stopped writes s
    sampleSupply

/-- The call returns. -/
def sampleReturns (call : Fin 3) (s : Store) : Bool :=
  ((@AttemptCall.prog samplePlatform sampleEntropy (sampleAttemptCall call)).run s
    sampleSupply).result.toBool

/-- The job is submitted and its attempt has begun. -/
def sampleBegun : Store := sampleAttempt 0 100 (sampleIngestStore 1)

/-- The reconciliation stops between its event and the index head. -/
def sampleCut : Store := sampleAttempt 1 6 sampleBegun

/-- The reconciliation is retried and the job completed. -/
def sampleTwice : Store := sampleAttempt 2 100 (sampleAttempt 1 100 sampleCut)

/-- The completion stops once the job has succeeded. -/
def sampleSilent : Store := sampleAttempt 2 2 (sampleAttempt 1 100 sampleBegun)

/-- A call, stopped after one of its durable writes or run to its end. -/
def AttemptCall.Step [Platform] (s t : Store) : Prop :=
  ∃ (_ : Entropy) (call : AttemptCall) (v : Supply), t ∈ call.prog.halts s v

theorem sampleAttempt_step (call : Fin 3) (writes : Nat) (s : Store) :
    @AttemptCall.Step samplePlatform s (sampleAttempt call writes s) :=
  ⟨sampleEntropy, sampleAttemptCall call, sampleSupply, stopped_mem_halts ..⟩

/-- The events of a job. -/
def jobEvents (jobId : DurableRecordId) (p : Path) (c : Content p) : Option (Nat × RelayEvent) :=
  match p, c with
  | .event id k, event => if id = jobId then some (k, event) else none
  | _, _ => none

theorem occurs_iff {jobId : DurableRecordId} {wanted : RelayEvent → Bool} :
    Occurs s jobId wanted k ↔ k ∈ ((s.collect (jobEvents jobId)).filter fun e => wanted e.2).map
      Prod.fst := by
  rw [List.mem_map]
  constructor
  · rintro ⟨event, hread, hwanted⟩
    refine ⟨(k, event), List.mem_filter.2 ⟨Files.mem_collect.2 ⟨_, event, hread, ?_⟩, hwanted⟩, rfl⟩
    simp [jobEvents]
  · rintro ⟨⟨_, event⟩, hmem, rfl⟩
    obtain ⟨hmem, hwanted⟩ := List.mem_filter.1 hmem
    obtain ⟨p, c, hread, hc⟩ := Files.mem_collect.1 hmem
    cases p with
    | event =>
      simp only [jobEvents, Option.ite_none_right_eq_some, Option.some.injEq, Prod.mk.injEq] at hc
      obtain ⟨rfl, rfl, rfl⟩ := hc
      exact ⟨c, hread, hwanted⟩
    | _ => cases hc

/-- The sequences of the two announcements of the sample job. -/
def sampleAnnouncements (s : Store) : List Nat × List Nat :=
  (((s.collect (jobEvents sampleIngestId)).filter fun e =>
      @announcesInput samplePlatform sampleIngestId e.2).map Prod.fst,
    ((s.collect (jobEvents sampleIngestId)).filter fun e => announcesSuccess e.2).map Prod.fst)

/-- The state of the sample job. -/
def sampleIngestState (s : Store) : Option JobState :=
  (s.read (.job sampleIngestId)).map RelayJob.state

theorem ingestSucceeded_of_state (h : sampleIngestState s = some .succeeded) :
    IngestSucceeded s sampleIngestId := by
  obtain ⟨job, hread, hst⟩ := Option.map_eq_some_iff.1 h
  exact ⟨job, hread, hst⟩

theorem not_ingestSucceeded_of_state (h : sampleIngestState s = some .queued) :
    ¬ IngestSucceeded s sampleIngestId := by
  rintro ⟨_, hread, hst⟩
  unfold sampleIngestState at h
  rw [hread, Option.map_some, hst] at h
  cases h

theorem occurs_input :
    Occurs s sampleIngestId (@announcesInput samplePlatform sampleIngestId) k ↔
      k ∈ (sampleAnnouncements s).1 :=
  occurs_iff

theorem occurs_success :
    Occurs s sampleIngestId announcesSuccess k ↔ k ∈ (sampleAnnouncements s).2 :=
  occurs_iff

theorem announced_twice {i : Nat} {rest : List Nat} (h : (sampleAnnouncements s).1 = i :: k :: rest)
    (hik : i ≠ k) :
    ¬ OccursOnce s sampleIngestId (@announcesInput samplePlatform sampleIngestId) := by
  rintro ⟨m, -, hunique⟩
  have hi := hunique i (occurs_input.2 (by rw [h]; exact List.mem_cons_self))
  have hk := hunique k (occurs_input.2 (by rw [h]; exact List.mem_cons_of_mem _ List.mem_cons_self))
  omega

theorem success_unannounced (h : (sampleAnnouncements s).2 = []) :
    ¬ OccursOnce s sampleIngestId announcesSuccess := by
  rintro ⟨k, hk, -⟩
  have hin := occurs_success.1 hk
  rw [h] at hin
  cases hin

theorem sampleStates : sampleIngestState sampleTwice = some .succeeded ∧
    sampleIngestState sampleSilent = some .succeeded ∧
    sampleIngestState (sampleIngestStore 1) = some .queued := by
  decide +kernel

theorem sampleRuns (reconciled completed : Nat) :
    @Relation.ReflTransGen _ (@AttemptCall.Step samplePlatform) (sampleIngestStore 1)
      (sampleAttempt 2 completed (sampleAttempt 1 100 (sampleAttempt 1 reconciled sampleBegun))) ∧
    @Relation.ReflTransGen _ (@AttemptCall.Step samplePlatform) (sampleIngestStore 1)
      (sampleAttempt 2 completed (sampleAttempt 1 100 sampleBegun)) := by
  have hbegun := Relation.ReflTransGen.single (sampleAttempt_step 0 100 (sampleIngestStore 1))
  exact ⟨((hbegun.tail (sampleAttempt_step 1 reconciled _)).tail (sampleAttempt_step 1 100 _)).tail
    (sampleAttempt_step 2 completed _),
    (hbegun.tail (sampleAttempt_step 1 100 _)).tail (sampleAttempt_step 2 completed _)⟩

theorem sampleReturned : sampleReturns 1 sampleCut = true ∧
    sampleReturns 2 (sampleAttempt 1 100 sampleCut) = true ∧
    sampleReturns 2 sampleSilent = false := by
  decide +kernel

/-- **Stops break both announcements.**  A reconciliation that stops between its event and the
index head is retried, its caller completes the job, and the log has the event of the artifact
twice.  A completion that stops once the job has succeeded is refused when it is retried, and no
call then puts the event of the success into the log. -/
theorem ingest_announcements_broken :
    (@Relation.ReflTransGen _ (@AttemptCall.Step samplePlatform) (sampleIngestStore 1) sampleTwice ∧
      sampleReturns 1 sampleCut = true ∧ sampleReturns 2 (sampleAttempt 1 100 sampleCut) = true ∧
      IngestSucceeded sampleTwice sampleIngestId ∧
      ¬ OccursOnce sampleTwice sampleIngestId (@announcesInput samplePlatform sampleIngestId)) ∧
    @Relation.ReflTransGen _ (@AttemptCall.Step samplePlatform) (sampleIngestStore 1) sampleSilent ∧
      sampleReturns 2 sampleSilent = false ∧ IngestSucceeded sampleSilent sampleIngestId ∧
      ∀ call, ¬ OccursOnce (sampleAttempt call 100 sampleSilent) sampleIngestId announcesSuccess :=
  ⟨⟨(sampleRuns 6 100).1, sampleReturned.1, sampleReturned.2.1,
    ingestSucceeded_of_state sampleStates.1,
    announced_twice (show (sampleAnnouncements sampleTwice).1 = [4, 3] by decide +kernel)
      (by decide)⟩,
    (sampleRuns 0 2).2, sampleReturned.2.2, ingestSucceeded_of_state sampleStates.2.1,
    fun call => success_unannounced (by revert call; decide +kernel)⟩

/-- Nothing is announced in a store without events and intents. -/
theorem ingestWaiting_of_empty (hintents : s.collect intentsListed = [])
    (hevs : sampleAnnouncements s = ([], [])) (hst : sampleIngestState s = some .queued) :
    @IngestWaiting samplePlatform sampleIngestId s := by
  let := samplePlatform
  refine ⟨fun key I hI => ?_, fun k hk => ?_, fun k hk => ?_, not_ingestSucceeded_of_state hst⟩
  · have hin : I ∈ s.collect intentsListed := Files.mem_collect.2 ⟨_, I, hI, rfl⟩
    rw [hintents] at hin
    cases hin
  · have hin := occurs_input.1 hk
    rw [hevs] at hin
    cases hin
  · have hin := occurs_success.1 hk
    rw [hevs] at hin
    cases hin

theorem ingestWaiting_sample : @IngestWaiting samplePlatform sampleIngestId (sampleIngestStore 1) :=
  ingestWaiting_of_empty (by decide +kernel) (by decide +kernel) sampleStates.2.2

/-- The store that a sample call leaves when nothing stops it. -/
def sampleReturn (call : Fin 3) (s : Store) : Store :=
  ((@AttemptCall.prog samplePlatform sampleEntropy (sampleAttemptCall call)).run s
    sampleSupply).store

/-- The caller is done without a stop. -/
def sampleDone : Store := sampleReturn 2 (sampleReturn 1 (sampleReturn 0 (sampleIngestStore 1)))

theorem sampleReturn_run {ended : Set DurableRecordId} (call : Fin 3)
    (h : @AttemptRun samplePlatform sampleIngestId (sampleIngestStore 1) ended s)
    (hdist : (sampleAttemptCall call).Distinct sampleIngestId ended)
    (hret : call = 0 ∨ sampleReturns call s = true)
    (hann : call = 2 → (sampleAnnouncements s).1 = [3]) :
    ∃ ended, @AttemptRun samplePlatform sampleIngestId (sampleIngestStore 1) ended
      (sampleReturn call s) := by
  let := samplePlatform
  let := sampleEntropy
  refine ⟨_, .step sampleEntropy (sampleAttemptCall call) sampleSupply h hdist ?_
    (List.mem_append_right _ List.mem_cons_self)⟩
  refine AttemptCall.uncut_of_returns (fun id a hcall => ?_) fun hcalls => ?_
  · obtain rfl | rfl | rfl : call = 0 ∨ call = 1 ∨ call = 2 := by omega
    · cases hcall
    · cases hcall
    · cases hcall
      exact ⟨3, occurs_input.2 (by rw [hann rfl]; exact List.mem_cons_self)⟩
  · exact hret.resolve_left fun hzero => by subst hzero; exact hcalls _ _ _ rfl

/-- The caller is done: the announcements are there once each. -/
theorem ingest_attempts_exactly_once_sample :
    OccursOnce sampleDone sampleIngestId (@announcesInput samplePlatform sampleIngestId) ∧
      OccursOnce sampleDone sampleIngestId announcesSuccess := by
  let := samplePlatform
  obtain ⟨_, hbegun⟩ := sampleReturn_run 0 .start (fun _ => Set.notMem_empty _) (.inl rfl)
    (by decide)
  obtain ⟨_, hsaved⟩ := sampleReturn_run 1 hbegun trivial (.inr (by decide +kernel)) (by decide)
  obtain ⟨_, hdone⟩ := sampleReturn_run 2 hsaved trivial (.inr (by decide +kernel))
    fun _ => by decide +kernel
  exact (ingest_attempts_exactly_once ingestWaiting_sample hdone).2.2
    (ingestSucceeded_of_state (by decide +kernel))

end ClioQueue
