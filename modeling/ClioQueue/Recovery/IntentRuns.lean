/-
# Runs of a recovery

A worker registers the intent of a dispatch, starts the dispatch, and settles the intent from the
answer; where the answer is lost it queries the execution, as often as it takes.  It may stop after
any write, and a restarted worker goes on from what is stored.  `Step` is one write of one of the
writers, at the place of the worker's program where it stands.

In every run the reader accepts the intent after every write, attempts only grow, a started dispatch
stays started, a resolved intent stays as it is, and only an execution with the intent's identity or
an attributed refusal resolves it (`recovery_intent_sound`).
-/

import ClioQueue.Recovery.StageWriters

namespace ClioQueue.Recovery

open Wire Jarvis

variable {φ : Type}

/-- What a query of `_recover_jarvis_execution` fails with. -/
inductive RecoveryFault where
  | transport (kind message : String)
  | exited (returncode : Int) (detail : String)
  | unreadable (detail : String)
  | untrusted (reason : String) (given : reason ≠ "")
  | unattested
  | invalidDocuments (detail : String)
  | otherIdentity
  | predates
  | notPersisted
  | unscheduled

/-- The error that is recorded. -/
def RecoveryFault.error : RecoveryFault → String
  | transport kind message => s!"{kind}: {message}"
  | exited returncode detail => s!"recovery query exited {returncode}: {detail}"
  | unreadable detail => s!"recovery result could not be read: {detail}"
  | untrusted reason _ => reason
  | unattested => "runner execution-query validation did not match"
  | invalidDocuments detail => s!"native recovery documents were invalid: {detail}"
  | otherIdentity => "native recovery identity did not match the durable execution intent"
  | predates => "native execution predates the relay dispatch intent and cannot be adopted"
  | notPersisted => "recovered runtime metadata could not be persisted"
  | unscheduled =>
    "scheduled JARVIS execution is durable but its scheduler identity is not available yet"

theorem RecoveryFault.error_ne_empty (fault : RecoveryFault) : fault.error ≠ "" := by
  cases fault with
  | transport =>
    refine append_ne_empty _ fun hempty => ?_
    exact absurd (String.append_eq_empty_iff.1 hempty).2 (by decide)
  | exited =>
    refine append_ne_empty _ (append_ne_empty _ (append_ne_empty "recovery query exited " ?_))
    decide
  | unreadable => exact append_ne_empty "recovery result could not be read: " (by decide)
  | untrusted reason given => exact given
  | invalidDocuments =>
    exact append_ne_empty "native recovery documents were invalid: " (by decide)
  | unattested => decide
  | otherIdentity => decide
  | predates => decide
  | notPersisted => decide
  | unscheduled => decide

/-- Where a worker stands with the dispatch of a task. -/
inductive Location where
  /-- Nothing is registered. -/
  | preparing
  /-- The intent is registered, and the process is not released. -/
  | dispatching
  /-- The process was released, and its answer is awaited or read. -/
  | dispatched
  /-- The execution is being queried. -/
  | querying
  /-- The intent is left to the cleanup of a restarted worker. -/
  | reconciling
deriving DecidableEq, Repr

/-- A task, the worker that has it and the time of the last write. -/
structure World (φ : Type) where
  task : RecoveryTask φ
  location : Location
  now : Int

/-- What happens to an intent. -/
inductive Event (φ : Type) where
  | register
  | start
  | attempt
  | process
  | clear
  | terminate
  | fail (fault : RecoveryFault)
  | resolve (documents : NativeDocuments φ)
  | refuse (document : Value (Number φ)) (refusal : Refusal)
  | other
  | stop

/-- What a dispatch registers besides the intent. -/
def registeredKeys : List String :=
  ["execution_sidecars", "execution_cleanup", "runtime_sidecar_channel"]

section Steps

variable [PyFloat φ] [Installation φ] [UtcFormat] [Sha256] [CaseFold]

/-- One write of one of the writers. -/
inductive Step (job : RoutedJob φ) : Event φ → World φ → World φ → Prop where
  /-- The intent is created, anchored and registered. -/
  | register {world : World φ} {createdAt : Moment} {token : Token} {anchor : DirectoryAnchor}
      {others : Fields (Number φ)} {intent : Option (Fields (Number φ))}
      (location : world.location = .preparing) (clock : world.now ≤ createdAt.val)
      (created : jarvisExecutionRecoveryIntent job createdAt token anchor = .ok intent)
      (keys : ∀ key ∈ others.map Prod.fst, key ∈ registeredKeys) :
      Step job .register world
        ⟨registerExecutionCleanup world.task others intent, .dispatching, createdAt.val⟩
  /-- The process of the dispatch is ready and is released. -/
  | start {world : World φ} {host : WorkerHost} {process : StartedProcess φ} {time : Moment}
      {task : RecoveryTask φ} (location : world.location = .dispatching)
      (clock : world.now ≤ time.val)
      (write : appendExecutionStart host job world.task process time = .ok task) :
      Step job .start world ⟨task, .dispatched, time.val⟩
  /-- A query begins: in the run of the job, or in a cleanup. -/
  | attempt {world : World φ} {time : Moment} {intent : Fields (Number φ)} {attempt : Int}
      {task : RecoveryTask φ}
      (location : world.location = .dispatched ∨ world.location = .reconciling)
      (clock : world.now ≤ time.val)
      (write : beginRecoveryAttempt job world.task time = .ok (.attempt intent attempt task)) :
      Step job .attempt world ⟨task, .querying, time.val⟩
  /-- The process of the query is ready and is recorded. -/
  | process {world : World φ} {host : WorkerHost} {process : StartedProcess φ} {time : Moment}
      {task : RecoveryTask φ} (location : world.location = .querying)
      (clock : world.now ≤ time.val)
      (write : recordJarvisRecoveryProcess host job world.task process time = .ok task) :
      Step job .process world ⟨task, .querying, time.val⟩
  /-- The process of the query has ended. -/
  | clear {world : World φ} {task : RecoveryTask φ} (location : world.location = .querying)
      (write : clearJarvisRecoveryProcess job world.task = .ok task) :
      Step job .clear world ⟨task, .querying, world.now⟩
  /-- A restarted worker ends the query that another one left. -/
  | terminate {world : World φ} {terminate : Fields (Number φ) → Except RecoveryError Unit}
      {task : RecoveryTask φ} (location : world.location = .reconciling)
      (write : terminateRecordedJarvisRecoveryQuery job world.task terminate = .ok task) :
      Step job .terminate world ⟨task, .reconciling, world.now⟩
  /-- The query fails. -/
  | fail {world : World φ} {fault : RecoveryFault} {payload : Option (List UInt8)} {time : Moment}
      {task : RecoveryTask φ} (location : world.location = .querying)
      (clock : world.now ≤ time.val)
      (write : recordJarvisRecoveryFailure job world.task fault.error
        (payload.map Sha256.hexdigest) time = .ok task) :
      Step job (.fail fault) world ⟨task, .reconciling, time.val⟩
  /-- The answer of the dispatch settles the intent. -/
  | answered {world : World φ} {value : Value (Number φ)} {documents : NativeDocuments φ}
      {resultFile : Option (List UInt8)} {time : Moment} {task : RecoveryTask φ}
      (location : world.location = .dispatched) (clock : world.now ≤ time.val)
      (parsed : Worker.nativeExecutionDocuments value = .ok documents)
      (write : resolveJarvisExecutionRecovery job world.task (nativeRuntime documents)
        "dispatch_result" resultFile none time = .ok task) :
      Step job (.resolve documents) world ⟨task, .dispatched, time.val⟩
  /-- The answer of the query settles the intent. -/
  | recovered {world : World φ} {value : Value (Number φ)} {documents : NativeDocuments φ}
      {payload : List UInt8} {time : Moment} {task : RecoveryTask φ}
      (location : world.location = .querying) (clock : world.now ≤ time.val)
      (parsed : Worker.nativeExecutionDocuments value = .ok documents)
      (write : resolveJarvisExecutionRecovery job world.task (nativeRuntime documents)
        "execution_query" none (some (Sha256.hexdigest payload)) time = .ok task) :
      Step job (.resolve documents) world ⟨task, .dispatched, time.val⟩
  /-- JARVIS refused the run: its answer was just read, or was stored before a restart. -/
  | refuse {world : World φ} {document : Value (Number φ)} {refusal : Refusal}
      {resultFile : Option (List UInt8)} {time : Moment} {task : RecoveryTask φ}
      (location : world.location = .dispatched ∨ world.location = .reconciling)
      (clock : world.now ≤ time.val)
      (attributed : attributedJarvisDispatchRefusal job document = some refusal)
      (write : refuseJarvisExecutionRecovery job world.task refusal resultFile time = .ok task) :
      Step job (.refuse document refusal) world ⟨task, world.location, time.val⟩
  /-- The metadata changes in another place. -/
  | other {world : World φ} {updates : Fields (Number φ)}
      (keys : intentKey ∉ updates.map Prod.fst) :
      Step job .other world { world with task := world.task.update updates }
  /-- The worker stops, and another one finds what is stored. -/
  | stop {world : World φ} :
      Step job .stop world { world with location := .reconciling }

/-- A run. -/
inductive Runs (job : RoutedJob φ) : List (Event φ) → World φ → World φ → Prop where
  | nil (world : World φ) : Runs job [] world world
  | snoc {events : List (Event φ)} {event : Event φ} {first middle last : World φ}
      (run : Runs job events first middle) (step : Step job event middle last) :
      Runs job (events ++ [event]) first last

/-! ### What a run does to an intent -/

/-- An event that may resolve an intent: an execution with its identity, or a refusal of its job. -/
def Event.Settles (job : RoutedJob φ) (intent : Fields (Number φ)) : Event φ → Prop
  | .resolve documents =>
    (viewOf intent).pipelineId = .str documents.executionRecord.pipelineId ∧
      (viewOf intent).executionId = .str documents.executionRecord.executionId
  | .refuse document refusal => attributedJarvisDispatchRefusal job document = some refusal
  | _ => False

/-- The number of attempts. -/
def attemptsOf (intent : Fields (Number φ)) : Int := (int? (viewOf intent).attempts).getD 0

/-- An intent and what events have made of it. -/
structure Advance (job : RoutedJob φ) (events : List (Event φ)) (intent intent' : Fields (Number φ)) :
    Prop where
  attempts : attemptsOf intent ≤ attemptsOf intent'
  started : (viewOf intent).dispatchState = .str "started" →
    (viewOf intent').dispatchState = .str "started"
  resolved : (viewOf intent).state = .str "resolved" → intent' = intent
  settled : (viewOf intent).state = .str "pending" → (viewOf intent').state = .str "resolved" →
    ∃ event ∈ events, event.Settles job intent
  identity : (viewOf intent').pipelineId = (viewOf intent).pipelineId ∧
    (viewOf intent').executionId = (viewOf intent).executionId

/-- A task and what events have made of its intent. -/
def Advances (job : RoutedJob φ) (events : List (Event φ)) (before after : RecoveryTask φ) : Prop :=
  ∀ intent, before.metadata.get intentKey = .dict intent →
    ∃ intent', after.metadata.get intentKey = .dict intent' ∧ Advance job events intent intent'

variable {job : RoutedJob φ} {task task' : RecoveryTask φ} {intent intent' : Fields (Number φ)}
  {created : Int} {stage stage' : Stage φ} {events : List (Event φ)} {event : Event φ}
  {world world' : World φ} {now : Int} {later : List (Event φ)} {location : Location}

omit [UtcFormat] [Sha256] [CaseFold] in
theorem Advance.refl (intent : Fields (Number φ)) : Advance job events intent intent where
  attempts := le_rfl
  started := id
  resolved _ := rfl
  settled hpend hresolved := by
    rw [hpend] at hresolved
    exact absurd hresolved (by simp)
  identity := ⟨rfl, rfl⟩

omit [UtcFormat] [Sha256] [CaseFold] in
/-- Intents that advance by some events and then by others advance by all of them. -/
theorem Advance.trans {intent'' : Fields (Number φ)} (h : Advance job events intent intent')
    (h' : Advance job later intent' intent'')
    (hst : (viewOf intent').state = .str "pending" ∨ (viewOf intent').state = .str "resolved") :
    Advance job (events ++ later) intent intent'' where
  attempts := h.attempts.trans h'.attempts
  started := fun hstarted => h'.started (h.started hstarted)
  resolved hresolved := by
    obtain rfl := h.resolved hresolved
    exact h'.resolved hresolved
  settled hpend hresolved := by
    rcases hst with hmid | hmid
    · obtain ⟨event, hmem, hsettles⟩ := h'.settled hmid hresolved
      refine ⟨event, List.mem_append_right _ hmem, ?_⟩
      cases event with
      | resolve => exact ⟨h.identity.1 ▸ hsettles.1, h.identity.2 ▸ hsettles.2⟩
      | refuse => exact hsettles
      | _ => exact hsettles.elim
    · obtain ⟨event, hmem, hsettles⟩ := h.settled hpend hmid
      exact ⟨event, List.mem_append_left _ hmem, hsettles⟩
  identity := ⟨h'.identity.1.trans h.identity.1, h'.identity.2.trans h.identity.2⟩

omit [CaseFold] in
/-- What two stages say of the intents that show them. -/
theorem advance_of_stages (h : Stored job task intent created stage)
    (h' : Stored job task' intent' created stage') (hkept : Kept intent intent')
    (hatts : stage.attempts ≤ stage'.attempts)
    (hstarted : stage.startedAt.isSome → stage'.startedAt.isSome)
    (hpend : stage.resolution = none)
    (hsettled : stage'.resolution = none ∨ event.Settles job intent) :
    Advance job [event] intent intent' where
  attempts := by
    rw [attemptsOf, attemptsOf, h.attempts, h'.attempts]
    exact Int.ofNat_le.2 hatts
  started hshown := by
    have hstart : stage.startedAt.isSome = true := h.isStarted ▸ Value.isStr_iff.2 hshown
    exact Value.isStr_iff.1 (h'.isStarted.trans (hstarted hstart))
  resolved hshown := by
    have hresolved : stage.resolution.isSome = true := h.isResolved ▸ Value.isStr_iff.2 hshown
    rw [hpend] at hresolved
    cases hresolved
  settled _ hshown := by
    rcases hsettled with hnone | hsettles
    · have hresolved : stage'.resolution.isSome = true := h'.isResolved ▸ Value.isStr_iff.2 hshown
      rw [hnone] at hresolved
      cases hresolved
    · exact ⟨event, List.mem_singleton.2 rfl, hsettles⟩
  identity := ⟨hkept "pipeline_id" (by decide), hkept "execution_id" (by decide)⟩

/-! ### The invariant -/

/-- A query has begun. -/
def Stage.IsQuerying (stage : Stage φ) : Prop :=
  ∃ startedAt attempts attemptedAt process, stage = .querying startedAt attempts attemptedAt process

/-- A stored intent, at a time and at a place of the worker's program. -/
structure Placed (job : RoutedJob φ) (world : World φ) (intent : Fields (Number φ)) (created : Int)
    (stage : Stage φ) : Prop where
  stored : Stored job world.task intent created stage
  created : created ≤ world.now
  until_now : stage.Until world.now
  registered : world.location ≠ .preparing
  dispatching : world.location = .dispatching → stage = .prepared
  querying : world.location = .querying → stage.IsQuerying

/-- **The invariant of a run:** no intent is stored, or one that fits the worker's place. -/
def Sane (job : RoutedJob φ) (world : World φ) : Prop :=
  world.task.metadata.get intentKey = .null ∨
    ∃ intent created stage, Placed job world intent created stage

section

omit [CaseFold]

section

variable (h : Placed job world intent created stage)

include h

/-- **A writer that leaves a fitting stage** keeps the invariant and advances the intent. -/
theorem Placed.next (hleaves : Leaves job task' intent created stage') (hclock : world.now ≤ now)
    (huntil : stage'.Until now) (hreg : location ≠ .preparing)
    (hdispatching : location = .dispatching → stage' = .prepared)
    (hquerying : location = .querying → stage'.IsQuerying)
    (hatts : stage.attempts ≤ stage'.attempts)
    (hstarted : stage.startedAt.isSome → stage'.startedAt.isSome)
    (hpend : stage.resolution = none)
    (hsettled : stage'.resolution = none ∨ event.Settles job intent) :
    Sane job ⟨task', location, now⟩ ∧ Advances job [event] world.task task' := by
  obtain ⟨intent', hstored, hkept⟩ := hleaves
  refine ⟨.inr ⟨intent', created, stage', hstored, h.created.trans hclock, huntil, hreg,
    hdispatching, hquerying⟩, fun intent₀ hintent₀ => ?_⟩
  cases hintent₀.symm.trans h.stored.stored
  exact ⟨intent', hstored.stored,
    advance_of_stages h.stored hstored hkept hatts hstarted hpend hsettled⟩

/-- A writer that leaves the intent as it is. -/
theorem Placed.same (hintent : task'.metadata.get intentKey = world.task.metadata.get intentKey)
    (hclock : world.now ≤ now) (hreg : location ≠ .preparing)
    (hdispatching : location = .dispatching → stage = .prepared)
    (hquerying : location = .querying → stage.IsQuerying) :
    Sane job ⟨task', location, now⟩ ∧ Advances job [event] world.task task' := by
  have hstored : Stored job task' intent created stage :=
    { h.stored with stored := hintent.trans h.stored.stored }
  refine ⟨.inr ⟨intent, created, stage, hstored, h.created.trans hclock,
    ⟨fun time ht => (h.until_now.1 time ht).trans hclock,
      fun time ht => (h.until_now.2 time ht).trans hclock⟩, hreg, hdispatching, hquerying⟩,
    fun intent₀ hintent₀ => ?_⟩
  cases hintent₀.symm.trans h.stored.stored
  exact ⟨intent, hstored.stored, .refl intent⟩

theorem Placed.until_resolved {startedAt : Int}
    (hstarted : stage.startedAt = some startedAt) (hclock : world.now ≤ now)
    {resolution digest : String} {scheduler : Option (String × String)} :
    (Stage.resolved startedAt stage.attempts stage.attemptedAt now resolution digest scheduler :
      Stage φ).Until now := by
  refine ⟨?_, fun time ht => (h.until_now.2 time ht).trans hclock⟩
  rintro _ ⟨⟩
  exact (h.until_now.1 _ hstarted).trans hclock

end

end

/-- **A step on a stored intent.** -/
theorem Step.of_placed (h : Step job event world world') (hp : Placed job world intent created stage) :
    Sane job world' ∧ Advances job [event] world.task world'.task := by
  cases h with
  | register location => exact absurd location hp.registered
  | @start _ _ _ time _ location clock write =>
    obtain rfl := hp.dispatching location
    have hleaves := hp.stored.appendExecutionStart (hp.created.trans clock) write
    refine hp.next hleaves clock ⟨?_, ?_⟩ (by simp) (by simp) (by simp) le_rfl (by simp [Stage.startedAt])
      rfl (.inl rfl)
    · rintro _ ⟨⟩
      exact le_rfl
    · rintro _ ⟨⟩
  | @attempt _ time _ _ _ location clock write =>
    obtain ⟨hpend, -, startedAt, hstarted, hleaves⟩ :=
      hp.stored.beginRecoveryAttempt (hp.until_now.mono clock) write
    refine hp.next hleaves clock ⟨?_, ?_⟩ (by simp) (by simp) (fun _ => ⟨_, _, _, _, rfl⟩)
      (Nat.le_succ _) (by simp [Stage.startedAt]) hpend (.inl rfl)
    · rintro _ ⟨⟩
      exact (hp.until_now.1 _ hstarted).trans clock
    · rintro _ ⟨⟩
      exact le_rfl
  | @process _ _ _ time _ location clock write =>
    obtain ⟨startedAt, attempts, attemptedAt, process, rfl⟩ := hp.querying location
    have hatt := (hp.until_now.2 _ rfl).trans clock
    have hleaves := hp.stored.recordJarvisRecoveryProcess hatt write
    exact hp.next hleaves clock ((hp.until_now.mono clock : _)) (by simp) (by simp)
      (fun _ => ⟨_, _, _, _, rfl⟩) le_rfl id rfl (.inl rfl)
  | clear location write =>
    rcases hp.stored.clearJarvisRecoveryProcess write with rfl |
      ⟨startedAt, attempts, attemptedAt, process, rfl, hleaves⟩
    · exact hp.same rfl le_rfl (by simp) (by simp) fun _ => hp.querying location
    · exact hp.next hleaves le_rfl hp.until_now (by simp) (by simp) (fun _ => ⟨_, _, _, _, rfl⟩)
        le_rfl id rfl (.inl rfl)
  | terminate location write =>
    rcases hp.stored.terminateRecordedJarvisRecoveryQuery write with rfl |
      ⟨startedAt, attempts, attemptedAt, process, rfl, hleaves⟩
    · exact hp.same rfl le_rfl (by simp) (by simp) (by simp)
    · exact hp.next hleaves le_rfl hp.until_now (by simp) (by simp) (by simp) le_rfl id rfl
        (.inl rfl)
  | fail location clock write =>
    obtain ⟨startedAt, attempts, attemptedAt, process, rfl⟩ := hp.querying location
    have hatt := (hp.until_now.2 _ rfl).trans clock
    obtain ⟨_, hleaves⟩ := hp.stored.recordJarvisRecoveryFailure
      (RecoveryFault.error_ne_empty _) hatt write
    exact hp.next hleaves clock (hp.until_now.mono clock) (by simp) (by simp) (by simp) le_rfl id
      rfl (.inl rfl)
  | answered location clock parsed write =>
    obtain ⟨hpend, hpipe, hexec, startedAt, digest, scheduler, hstarted, hleaves⟩ :=
      hp.stored.resolveJarvisExecutionRecovery parsed (hp.until_now.mono clock)
        (fun h => absurd h (by decide)) write
    exact hp.next hleaves clock (hp.until_resolved hstarted clock) (by simp) (by simp) (by simp)
      le_rfl (by simp [Stage.startedAt]) hpend (.inr ⟨hpipe, hexec⟩)
  | recovered location clock parsed write =>
    have hatts : 0 < stage.attempts := by
      obtain ⟨startedAt, attempts, attemptedAt, process, rfl⟩ := hp.querying location
      exact hp.stored.sound.2.2.1
    obtain ⟨hpend, hpipe, hexec, startedAt, digest, scheduler, hstarted, hleaves⟩ :=
      hp.stored.resolveJarvisExecutionRecovery parsed (hp.until_now.mono clock)
        (fun _ => hatts) write
    exact hp.next hleaves clock (hp.until_resolved hstarted clock) (by simp) (by simp) (by simp)
      le_rfl (by simp [Stage.startedAt]) hpend (.inr ⟨hpipe, hexec⟩)
  | refuse location clock attributed write =>
    obtain ⟨hpend, startedAt, digest, hstarted, hleaves⟩ :=
      hp.stored.refuseJarvisExecutionRecovery (hp.until_now.mono clock) write
    have hplace : world.location ≠ .dispatching ∧ world.location ≠ .querying := by
      rcases location with hlocation | hlocation <;> simp [hlocation]
    exact hp.next hleaves clock (hp.until_resolved hstarted clock) hp.registered
      (fun h => absurd h hplace.1) (fun h => absurd h hplace.2) le_rfl
      (by simp [Stage.startedAt]) hpend (.inr attributed)
  | other keys =>
    exact hp.same (Fields.get_merge_of_not_mem _ keys) le_rfl hp.registered hp.dispatching
      hp.querying
  | stop => exact hp.same rfl le_rfl (by simp) (by simp) (by simp)

omit [UtcFormat] [CaseFold] in
theorem read_of_null [IsoFormat] (h : task.metadata.get intentKey = .null) :
    durableJarvisExecutionRecovery job task = .ok none := by
  simp only [durableJarvisExecutionRecovery, h]

/-- **A step without an intent**: only the registration stores one. -/
theorem Step.of_null (h : Step job event world world')
    (hnull : world.task.metadata.get intentKey = .null) : Sane job world' := by
  have hread : durableJarvisExecutionRecovery job world.task = .ok none := read_of_null hnull
  cases h with
  | @register _ createdAt _ _ others intent location clock made keys =>
    rcases intent with _ | intent
    · refine .inl ((Fields.get_merge_of_not_mem _ ?_).trans hnull)
      rw [Option.map_none, Option.toList_none, List.append_nil]
      exact fun hmem => absurd (keys _ hmem) (by decide)
    · refine .inr ⟨intent, createdAt.val, .prepared, stored_of_register made, le_rfl, ⟨?_, ?_⟩,
        by simp, fun _ => rfl, by simp⟩
      · rintro _ ⟨⟩
      · rintro _ ⟨⟩
  | start location clock write =>
    simp only [appendExecutionStart, hread, bind, Except.bind, pure, Except.pure,
      Except.ok.injEq] at write
    subst write
    exact .inl ((Fields.get_merge_of_not_mem _ (by simp [intentKey])).trans hnull)
  | attempt location clock write =>
    simp [beginRecoveryAttempt, hread, bind, Except.bind, pure, Except.pure] at write
  | process location clock write =>
    simp [recordJarvisRecoveryProcess, hread, bind, Except.bind] at write
  | clear location write =>
    simp only [clearJarvisRecoveryProcess, hread, bind, Except.bind, pure, Except.pure,
      Except.ok.injEq] at write
    exact .inl (write ▸ hnull)
  | terminate location write =>
    simp only [terminateRecordedJarvisRecoveryQuery, hread, bind, Except.bind, pure, Except.pure,
      Except.ok.injEq] at write
    exact .inl (write ▸ hnull)
  | fail location clock write =>
    simp [recordJarvisRecoveryFailure, hread, bind, Except.bind] at write
  | answered location clock parsed write | recovered location clock parsed write =>
    simp only [resolveJarvisExecutionRecovery, hread, bind, Except.bind, pure, Except.pure,
      Except.ok.injEq] at write
    exact .inl (write ▸ hnull)
  | refuse location clock attributed write =>
    simp only [refuseJarvisExecutionRecovery, hread, bind, Except.bind, pure, Except.pure,
      Except.ok.injEq] at write
    exact .inl (write ▸ hnull)
  | other keys => exact .inl ((Fields.get_merge_of_not_mem _ keys).trans hnull)
  | stop => exact .inl hnull

/-- **One step keeps the invariant and advances the intent.** -/
theorem Step.sane (h : Step job event world world') (hsane : Sane job world) :
    Sane job world' ∧ Advances job [event] world.task world'.task := by
  rcases hsane with hnull | ⟨intent, _, _, hplaced⟩
  · refine ⟨h.of_null hnull, fun intent hintent => ?_⟩
    exact absurd (hnull.symm.trans hintent) (by simp)
  · exact h.of_placed hplaced

omit [CaseFold] in
/-- Runs compose, as long as the world in between is sane. -/
theorem Advances.trans {middle : World φ} (h : Advances job events task middle.task)
    (h' : Advances job later middle.task task') (hsane : Sane job middle) :
    Advances job (events ++ later) task task' := by
  intro intent hintent
  obtain ⟨intent', hmid, hfirst⟩ := h intent hintent
  obtain ⟨intent'', hlast, hsecond⟩ := h' intent' hmid
  refine ⟨intent'', hlast, hfirst.trans hsecond ?_⟩
  rcases hsane with hnull | ⟨stored, _, stage, hplaced⟩
  · exact absurd (hnull.symm.trans hmid) (by simp)
  · cases hplaced.stored.stored.symm.trans hmid
    rw [hplaced.stored.describes.state]
    cases stage.resolution <;> simp

/-- **A run keeps the invariant and advances the intent**, by induction on its steps. -/
theorem Runs.sane {first last : World φ} (h : Runs job events first last) (hsane : Sane job first) :
    Sane job last ∧ Advances job events first.task last.task := by
  induction h with
  | nil => exact ⟨hsane, fun intent hintent => ⟨intent, hintent, .refl intent⟩⟩
  | @snoc events event first middle last run step ih =>
    obtain ⟨hmid, hfirst⟩ := ih hsane
    obtain ⟨hlast, hnext⟩ := step.sane hmid
    exact ⟨hlast, hfirst.trans hnext hmid⟩

/-- The intent that a task has. -/
def storedIntent (task : RecoveryTask φ) : Option (Fields (Number φ)) :=
  match task.metadata.get intentKey with
  | .dict intent => some intent
  | _ => none

omit [CaseFold] in
theorem Sane.read (h : Sane job world) :
    durableJarvisExecutionRecovery job world.task = .ok (storedIntent world.task) := by
  rcases h with hnull | ⟨intent, _, _, hplaced⟩
  · rw [read_of_null hnull, storedIntent, hnull]
  · rw [hplaced.stored.read, storedIntent, hplaced.stored.stored]

/-- **The recovery intent is a sound state machine that is always readable.**  In every run of the
worker that starts without an intent, the reader returns the stored intent after every write, and
whatever happens from there on lets attempts only grow, keeps a started dispatch started and a
resolved intent as it is, and resolves a pending intent only by an execution with its pipeline and
execution ids or by a refusal that is attributed to the job. -/
theorem recovery_intent_sound {first middle last : World φ} {earlier later : List (Event φ)}
    (hstart : first.task.metadata.get intentKey = .null)
    (hreached : Runs job earlier first middle) (hnext : Runs job later middle last) :
    durableJarvisExecutionRecovery job middle.task = .ok (storedIntent middle.task) ∧
      Advances job later middle.task last.task := by
  have hsane := (hreached.sane (.inl hstart)).1
  exact ⟨hsane.read, (hnext.sane hsane).2⟩

end Steps

/-! ### A lost answer -/

/-- An installation without a JARVIS server of its own. -/
@[reducible]
def sampleInstallation : Installation Int where
  jarvisMcpCommand := .error "no install receipt"
  jarvisCdLockBinding := []
  remoteArtifactVerified _ _ := true
  jarvisArtifactVerified _ _ := false
  devMode := false

/-- The first second of 2026 and the sixth. -/
def sampleTimes : List (Int × String) :=
  [(1767225600000000, "2026-01-01T00:00:00+00:00"),
    (1767225605000000, "2026-01-01T00:00:05+00:00")]

/-- The format of the sample times. -/
@[reducible]
def sampleUtcFormat : UtcFormat where
  fromisoformat text :=
    (sampleTimes.find? fun entry => entry.2 = text).map fun entry => ⟨entry.1, some 0⟩
  isMoment instant := sampleTimes.any fun entry => entry.1 = instant
  isoformat instant := ((sampleTimes.find? fun entry => entry.1 = instant).map Prod.snd).getD ""
  fromisoformat_isoformat instant h := by
    simp [sampleTimes] at h
    rcases h with rfl | rfl <;> decide

/-- SHA-256 of `key`. -/
@[reducible]
def sampleSha256 : Sha256 where
  hexdigest payload :=
    if payload = [107, 101, 121] then
      "2c70e12b7a0646f92279f427c7b38e7334d8e5389cff167a1dc30e73f826b683"
    else String.ofList (List.replicate 64 '0')
  isHex_hexdigest payload := by
    split_ifs
    · decide
    · rw [String.toList_ofList]
      decide

/-- `casefold` of ASCII. -/
@[reducible]
def sampleCaseFold : CaseFold where
  casefold text := text.map Char.toLower

/-- A JARVIS run through the registered contract. -/
def sampleJob : RoutedJob Int where
  jobId := "job_1"
  idempotencyKey := "key"
  call := some
    { server := "clio-kit"
      serverArgs := ["mcp-server", "jarvis"]
      envFrom := []
      expectedServerArtifactDigest := some "digest"
      expectedRegisteredContract := some "clio-kit-jarvis-user-v3.7.2"
      expectedJarvisCdLockBinding := none
      tool := some "jarvis_run"
      arguments := [("pipeline_id", .str "pipeline"), ("execution_id", .str "execution")]
      timeoutSeconds := none }

theorem isMoment_sample : sampleUtcFormat.isMoment 1767225600000000 = true := by decide

/-- The first second of 2026. -/
def sampleMoment : @Moment sampleUtcFormat := ⟨1767225600000000, isMoment_sample⟩

/-- The worker of the sample. -/
def sampleHost : WorkerHost := ⟨"ares", by simp, false, none⟩

/-- The process of the sample. -/
def sampleProcess : StartedProcess Int := ⟨4242, Nat.succ_pos _, some (.linux "77"), []⟩

theorem isHex_sample : isHex 32 "00112233445566778899aabbccddeeff".toList = true := by decide

/-- A task of the worker, before its dispatch. -/
def sampleWorld : World Int := ⟨⟨"task_1", [("cluster", .str "ares")]⟩, .preparing, 0⟩

/-- The task with the intent of its dispatch. -/
def registeredTask : RecoveryTask Int :=
  registerExecutionCleanup sampleWorld.task []
    (sampleJob.call.map fun spec => @createdIntent Int sampleUtcFormat sampleSha256 spec sampleJob
      "pipeline" "execution" sampleMoment ⟨_, isHex_sample⟩ ⟨1, 2, 1000, 448⟩)

/-- The task after a write; one that fails leaves it. -/
def afterWrite (task : RecoveryTask φ) (result : Except RecoveryError (RecoveryTask φ)) :
    RecoveryTask φ :=
  match result with
  | .ok written => written
  | .error _ => task

theorem eq_ok_afterWrite {task : RecoveryTask φ} {result : Except RecoveryError (RecoveryTask φ)}
    (h : result.isOk = true) : result = .ok (afterWrite task result) := by
  rcases result with _ | _
  · cases h
  · rfl

/-- The task after the start of its dispatch. -/
def startedTask : RecoveryTask Int :=
  afterWrite registeredTask (@appendExecutionStart Int sampleFloat sampleInstallation sampleUtcFormat
    sampleSha256 sampleHost sampleJob registeredTask sampleProcess sampleMoment)

/-- The task after the first attempt of a query. -/
def attemptedTask : RecoveryTask Int :=
  match @beginRecoveryAttempt Int sampleFloat sampleInstallation sampleUtcFormat sampleSha256 sampleJob
    startedTask sampleMoment with
  | .ok (.attempt _ _ task) => task
  | _ => startedTask

/-- The task after the failed query. -/
def failedTask : RecoveryTask Int :=
  afterWrite attemptedTask (@recordJarvisRecoveryFailure Int sampleFloat sampleInstallation
    sampleUtcFormat sampleSha256 sampleCaseFold sampleJob attemptedTask
    (RecoveryFault.error (.transport "RelayError" "timed out")) none sampleMoment)

/-- The runs of the sample. -/
abbrev sampleRuns : List (Event Int) → World Int → World Int → Prop :=
  @Runs Int sampleFloat sampleInstallation sampleUtcFormat sampleSha256 sampleCaseFold sampleJob

set_option maxRecDepth 8000 in
/-- A sample intent is registered, started and queried once, and stands when that query fails on the
transport. -/
theorem recovery_intent_sound_sample : ∃ middle last : World Int,
    sampleRuns [.register, .start, .attempt] sampleWorld middle ∧
      sampleRuns [.fail (.transport "RelayError" "timed out")] middle last ∧
      @durableJarvisExecutionRecovery Int sampleFloat sampleInstallation
        sampleUtcFormat.toIsoFormat sampleSha256 sampleJob middle.task =
        .ok (storedIntent middle.task) ∧
      @Advances Int sampleFloat sampleInstallation sampleJob
        [.fail (.transport "RelayError" "timed out")] middle.task last.task := by
  let _ := sampleFloat
  let _ := sampleInstallation
  let _ := sampleUtcFormat
  let _ := sampleSha256
  let _ := sampleCaseFold
  have hcreate : jarvisExecutionRecoveryIntent sampleJob sampleMoment ⟨_, isHex_sample⟩
      ⟨1, 2, 1000, 448⟩ = .ok (sampleJob.call.map fun spec =>
        createdIntent spec sampleJob "pipeline" "execution" sampleMoment ⟨_, isHex_sample⟩
          ⟨1, 2, 1000, 448⟩) := rfl
  have hregister : Step sampleJob .register sampleWorld
      ⟨registeredTask, .dispatching, sampleMoment.val⟩ :=
    .register rfl (by decide) hcreate (by simp)
  have hstart : Step sampleJob .start ⟨registeredTask, .dispatching, sampleMoment.val⟩
      ⟨startedTask, .dispatched, sampleMoment.val⟩ :=
    .start rfl le_rfl (eq_ok_afterWrite rfl)
  have hbegun : beginRecoveryAttempt sampleJob startedTask sampleMoment =
      .ok (.attempt ((storedIntent startedTask).getD []) 1 attemptedTask) := rfl
  have hattempt : Step sampleJob .attempt ⟨startedTask, .dispatched, sampleMoment.val⟩
      ⟨attemptedTask, .querying, sampleMoment.val⟩ :=
    .attempt (.inl rfl) le_rfl hbegun
  have hrecorded : recordJarvisRecoveryFailure sampleJob attemptedTask
      (RecoveryFault.error (.transport "RelayError" "timed out"))
      ((none : Option (List UInt8)).map Sha256.hexdigest) sampleMoment = .ok failedTask :=
    eq_ok_afterWrite rfl
  have hfail : Step sampleJob (.fail (.transport "RelayError" "timed out"))
      ⟨attemptedTask, .querying, sampleMoment.val⟩
      ⟨failedTask, .reconciling, sampleMoment.val⟩ :=
    .fail rfl le_rfl hrecorded
  have hreached : Runs sampleJob [.register, .start, .attempt] sampleWorld
      ⟨attemptedTask, .querying, sampleMoment.val⟩ :=
    .snoc (.snoc (.snoc (.nil _) hregister) hstart) hattempt
  have hnext : Runs sampleJob [.fail (.transport "RelayError" "timed out")]
      ⟨attemptedTask, .querying, sampleMoment.val⟩ ⟨failedTask, .reconciling, sampleMoment.val⟩ :=
    .snoc (.nil _) hfail
  have hsound := recovery_intent_sound rfl hreached hnext
  exact ⟨_, _, hreached, hnext, hsound.1, hsound.2⟩

end ClioQueue.Recovery
