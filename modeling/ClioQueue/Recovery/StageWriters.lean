/-
# The writers on stages

What each writer of a recovery intent does to the stage that the intent shows.  `Stored` says that a
task has an intent which shows a sound stage; the reader returns it (`Stored.read`), and every writer
leaves a task of which it holds again, for the stage that the writer is meant to reach (`Leaves`).
-/

import ClioQueue.Jarvis.WorkerAcceptance
import ClioQueue.Recovery.Stages

namespace ClioQueue.Recovery

open Wire Jarvis

variable {φ : Type}

/-! ### Texts that are read back -/

theorem timestampOf_isoformat [UtcFormat] (moment : Moment) :
    timestampOf (.str moment.isoformat : Value (Number φ)) = some moment.val := by
  change instantOf (UtcFormat.isoformat moment.val) = _
  rw [instantOf, UtcFormat.fromisoformat_isoformat _ moment.property]
  simp

theorem StartIdentity.text_ne_empty (identity : StartIdentity) : identity.text ≠ "" := by
  cases identity with
  | linux => exact append_ne_empty "linux-proc-start:" (by decide)
  | posix => exact append_ne_empty "posix-ps-start:" (by decide)
  | windows => exact append_ne_empty "windows-filetime:" (by decide)

theorem StartedProcess.identity_ne_empty (process : StartedProcess φ) : process.identity ≠ "" := by
  rw [StartedProcess.identity]
  rcases process.startIdentity with _ | identity
  · exact append_ne_empty "process-not-observed:" (by decide)
  · exact identity.text_ne_empty

theorem value_ne_empty (id : DurableRecordId) : id.value ≠ "" := by
  intro h
  have hval := id.valid
  rw [h] at hval
  exact absurd hval (by decide)

theorem isText_str {s : String} (h : s ≠ "") : isText (.str s : Value (Number φ)) = true := by
  simp [isText, Value.str?, h]

/-- **A recorded process is one that the reader takes.** -/
theorem isQueryProcess_executionOwnership [UtcFormat] (host : WorkerHost)
    (process : StartedProcess φ) {startedAt : Moment} {attemptedAt : Int}
    (h : attemptedAt ≤ startedAt.val) :
    isQueryProcess (executionOwnership host process startedAt) attemptedAt = true := by
  have hpid : isPositive (.num (.int process.processId) : Value (Number φ)) = true := by
    simp [isPositive, int?, process.positive]
  have hgroup : ((if host.windows then .null else .num (.int process.processId) :
        Value (Number φ)).isNull ||
      isPositive (if host.windows then .null else .num (.int process.processId) :
        Value (Number φ))) = true := by
    split_ifs
    · rfl
    · rw [hpid, Bool.or_true]
  have hendp : ((optionalText (host.endpointId.map DurableRecordId.value) :
        Value (Number φ)).isNull ||
      isText (optionalText (host.endpointId.map DurableRecordId.value) : Value (Number φ))) =
      true := by
    rcases host.endpointId with _ | id
    · rfl
    · exact isText_str (value_ne_empty id)
  have htime : (timestampOf (.str startedAt.isoformat : Value (Number φ))).any (attemptedAt ≤ ·) =
      true := by
    rw [timestampOf_isoformat]
    exact decide_eq_true h
  have hsch : (Value.str ownershipSchema : Value (Number φ)).isStr ownershipSchema = true :=
    Value.isStr_iff.2 rfl
  have hfields : (executionOwnership host process startedAt).hasExactly ownershipFields = true := rfl
  rw [isQueryProcess, hfields]
  change (true && (Value.str ownershipSchema).isStr ownershipSchema &&
    isPositive (.num (.int process.processId)) && isText (.str host.hostname) &&
    isText (.str process.identity) &&
    ((if host.windows then .null else .num (.int process.processId) : Value (Number φ)).isNull ||
      isPositive (if host.windows then .null else .num (.int process.processId) :
        Value (Number φ))) &&
    (timestampOf (.str startedAt.isoformat : Value (Number φ))).any (attemptedAt ≤ ·) &&
    ((optionalText (host.endpointId.map DurableRecordId.value) : Value (Number φ)).isNull ||
      isText (optionalText (host.endpointId.map DurableRecordId.value) : Value (Number φ))) &&
    true) = true
  rw [hsch, hpid, isText_str host.named, isText_str process.identity_ne_empty, hgroup, htime, hendp]
  rfl

/-! ### A stored intent -/

/-- The fields that the writers change. -/
def writtenFields : List String :=
  ["state", "dispatch_state", "dispatch_started_at", "attempts", "last_attempt_at",
    "next_retry_at", "last_error", "result_sha256", "resolved_at", "resolution",
    "scheduler_provider", "scheduler_job_id", "query_process"]

/-- The other fields are as they were. -/
def Kept (intent intent' : Fields (Number φ)) : Prop :=
  ∀ name, name ∉ writtenFields → intent'.get name = intent.get name

variable {intent intent' : Fields (Number φ)}

section Writers

variable [PyFloat φ] [Installation φ] [UtcFormat] [Sha256] {job : RoutedJob φ}
  {task task' : RecoveryTask φ} {created : Int} {stage : Stage φ}
  {anchor : DirectoryAnchor} {startedAt : Int} {createdAt now : Moment}
  {documents : NativeDocuments φ} {resultFile : Option (List UInt8)} {verified : Option String}
  {digest resolution : String} {token : Token} {value : Value (Number φ)}

/-- A task has an intent, which shows a sound stage. -/
structure Stored (job : RoutedJob φ) (task : RecoveryTask φ) (intent : Fields (Number φ))
    (created : Int) (stage : Stage φ) : Prop where
  stored : task.metadata.get intentKey = .dict intent
  fields : intent.hasExactly intentFields = true
  bound : (viewOf intent).isBound job = true
  createdAt : timestampOf (viewOf intent).createdAt = some created
  describes : Describes (viewOf intent) stage
  sound : stage.Sound created

section

variable (h : Stored job task intent created stage)

include h

/-- **The reader returns a stored intent.** -/
theorem Stored.read : durableJarvisExecutionRecovery job task = .ok (some intent) := by
  have hval : (Fields.hasExactly intent intentFields && (viewOf intent).isValid job) = true := by
    rw [h.fields, isValid_of_describes h.bound h.createdAt h.describes h.sound]
    rfl
  simp only [durableJarvisExecutionRecovery, h.stored, hval, if_true]

theorem Stored.isPending : (viewOf intent).isPending = stage.resolution.isNone :=
  isPending_of_describes h.describes

theorem Stored.isStarted :
    (viewOf intent).dispatchState.isStr "started" = stage.startedAt.isSome := by
  rw [h.describes.dispatchState]
  cases stage.startedAt <;> simp [Value.isStr]

theorem Stored.isResolved : (viewOf intent).state.isStr "resolved" = stage.resolution.isSome := by
  rw [h.describes.state]
  cases stage.resolution <;> simp [Value.isStr]

theorem Stored.attempts : (int? (viewOf intent).attempts).getD 0 = stage.attempts := by
  rw [h.describes.attempts]
  rfl

end

theorem Kept.isBound (h : Kept intent intent') :
    (viewOf intent').isBound job = (viewOf intent).isBound job := by
  simp only [IntentView.isBound, viewOf, h "schema_version" (by decide),
    h "pipeline_id" (by decide), h "execution_id" (by decide), h "scheduler_expected" (by decide),
    h "created_at" (by decide), h "expected_server_artifact_digest" (by decide),
    h "idempotency_key_sha256" (by decide), h "recovery_directory_name" (by decide),
    h "result_relative_path" (by decide), h "recovery_directory_anchor" (by decide)]

/-- A task has the intent of another one, but for the fields that the writers change. -/
def Leaves (job : RoutedJob φ) (task' : RecoveryTask φ) (intent : Fields (Number φ))
    (created : Int) (stage' : Stage φ) : Prop :=
  ∃ intent', Stored job task' intent' created stage' ∧ Kept intent intent'

/-- **An update of the intent** among the updates of a task. -/
theorem Stored.update (h : Stored job task intent created stage) {stage' : Stage φ}
    {updates : Fields (Number φ)} (front back : Fields (Number φ))
    (hkeys : ∀ key ∈ updates.map Prod.fst, key ∈ writtenFields)
    (hback : intentKey ∉ back.map Prod.fst)
    (hdescribes : Describes (viewOf (intent.merge updates)) stage')
    (hsound : stage'.Sound created) :
    Leaves job (task.update (front ++ (intentKey, .dict (intent.merge updates)) :: back)) intent
      created stage' := by
  have hwritten : ∀ key ∈ writtenFields, key ∈ intentFields := by decide
  have hkept : Kept intent (intent.merge updates) := fun _ hname =>
    Fields.get_merge_of_not_mem _ fun hmem => hname (hkeys _ hmem)
  refine ⟨_, ?_, hkept⟩
  constructor
  · exact Fields.get_merge_append_cons _ _ _ hback
  · exact Fields.hasExactly_merge _ h.fields fun key hkey => hwritten key (hkeys key hkey)
  · rw [hkept.isBound]
    exact h.bound
  · have hcreate : (viewOf (intent.merge updates)).createdAt = (viewOf intent).createdAt :=
      hkept "created_at" (by decide)
    rw [hcreate]
    exact h.createdAt
  · exact hdescribes
  · exact hsound

/-! ### Sound stages -/

section

omit [PyFloat φ] [Installation φ] [Sha256]

theorem Stage.Sound.created_le (h : stage.Sound created) : ∀ time ∈ stage.startedAt, created ≤ time := by
  cases stage with
  | prepared => rintro time ⟨⟩
  | started =>
    rintro time ⟨⟩
    exact h
  | querying | waiting | resolved =>
    rintro time ⟨⟩
    exact h.1

theorem Stage.Sound.attempts_eq_zero_iff (h : stage.Sound created) :
    stage.attempts = 0 ↔ stage.attemptedAt = none := by
  cases stage with
  | prepared | started => exact iff_of_true rfl rfl
  | querying | waiting =>
    exact iff_of_false (Nat.ne_of_gt h.2.2.1) (Option.some_ne_none _)
  | resolved => exact h.2.2.2.1

theorem Stage.Sound.started_le_attempted (h : stage.Sound created) :
    ∀ started ∈ stage.startedAt, ∀ time ∈ stage.attemptedAt, started ≤ time := by
  cases stage with
  | prepared => rintro started ⟨⟩
  | started => rintro started - time ⟨⟩
  | querying | waiting =>
    rintro started ⟨⟩ time ⟨⟩
    exact h.2.1
  | resolved =>
    rintro started ⟨⟩ time htime
    exact (h.2.2.1 time htime).1

end

/-- The fields of an intent whose dispatch was started and that is not resolved. -/
structure Released (view : IntentView φ) (startedAt : Int) : Prop where
  state : view.state = .str "pending"
  dispatchState : view.dispatchState = .str "started"
  dispatchStartedAt : timestampOf view.dispatchStartedAt = some startedAt
  resolvedAt : view.resolvedAt = .null
  resolution : view.resolution = .null
  schedulerProvider : view.schedulerProvider = .null
  schedulerJobId : view.schedulerJobId = .null

theorem Stored.released (h : Stored job task intent created stage)
    (hresol : stage.resolution = none) (hstarted : stage.startedAt = some startedAt) :
    Released (viewOf intent) startedAt := by
  have hd := h.describes
  cases stage with
  | prepared => cases hstarted
  | started | querying | waiting =>
    cases hstarted
    exact ⟨hd.state, hd.dispatchState, hd.dispatchStartedAt, hd.resolvedAt, hd.resolution,
      hd.schedulerProvider, hd.schedulerJobId⟩
  | resolved => cases hresol

/-! ### One lemma for each writer -/

theorem Stored.appendExecutionStart (h : Stored job task intent created .prepared)
    {host : WorkerHost} {process : StartedProcess φ} {startedAt : Moment}
    (htime : created ≤ startedAt.val)
    (hwrite : Recovery.appendExecutionStart host job task process startedAt = .ok task') :
    Leaves job task' intent created (.started startedAt.val) := by
  have hpend : (viewOf intent).isPending = true := h.isPending
  simp only [Recovery.appendExecutionStart, h.read, hpend, if_true, pure, bind, Except.bind,
    Except.pure, Except.ok.injEq] at hwrite
  subst hwrite
  refine h.update [_] [] (by simp [writtenFields]) (by simp) ?_ htime
  have hview : viewOf (intent.merge [("dispatch_state", .str "started"),
      ("dispatch_started_at", .str startedAt.isoformat)]) =
      { viewOf intent with
        dispatchState := .str "started"
        dispatchStartedAt := .str startedAt.isoformat } := by
    simp [viewOf, Fields.merge]
  rw [hview]
  exact { h.describes with
    dispatchState := rfl
    dispatchStartedAt := timestampOf_isoformat startedAt }

/-- `_recover_jarvis_execution`, up to its attempt: the dispatch was started, and is pending. -/
theorem Stored.beginRecoveryAttempt (h : Stored job task intent created stage)
    {attemptedAt : Moment} (htime : stage.Until attemptedAt.val) {intent' : Fields (Number φ)}
    {attempt : Int}
    (hwrite : Recovery.beginRecoveryAttempt job task attemptedAt =
      .ok (.attempt intent' attempt task')) :
    stage.resolution = none ∧ intent' = intent ∧ ∃ startedAt, stage.startedAt = some startedAt ∧
      Leaves job task' intent created
        (.querying startedAt (stage.attempts + 1) attemptedAt.val none) := by
  simp only [Recovery.beginRecoveryAttempt, h.read, h.isResolved, h.isStarted, h.attempts, bind,
    Except.bind, pure, Except.pure] at hwrite
  rcases hresol : stage.resolution with _ | _
  · rcases hstarted : stage.startedAt with _ | startedAt
    · simp [hresol, hstarted] at hwrite
    · simp only [hresol, hstarted, Option.isSome_none, Option.isSome_some,
        Bool.false_eq_true, Bool.not_true, if_false, Except.ok.injEq,
        RecoveryStart.attempt.injEq] at hwrite
      obtain ⟨rfl, rfl, rfl⟩ := hwrite
      refine ⟨rfl, rfl, startedAt, rfl, ?_⟩
      have hrel := h.released hresol hstarted
      have hview : viewOf (intent.merge [("attempts", .num (.int (stage.attempts + 1))),
          ("last_attempt_at", .str attemptedAt.isoformat), ("last_error", .null),
          ("next_retry_at", .null), ("result_sha256", .null), ("query_process", .null)]) =
          { viewOf intent with
            attempts := .num (.int (stage.attempts + 1))
            lastAttemptAt := .str attemptedAt.isoformat
            lastError := .null
            nextRetryAt := .null
            resultSha256 := .null
            queryProcess := .null } := by
        simp [viewOf, Fields.merge]
      refine h.update [] [] (by simp [writtenFields]) (by simp) ?_ ?_
      · rw [hview]
        exact
          { state := hrel.state
            dispatchState := hrel.dispatchState
            dispatchStartedAt := hrel.dispatchStartedAt
            attempts := rfl
            lastAttemptAt := timestampOf_isoformat attemptedAt
            nextRetryAt := rfl
            lastError := rfl
            resultSha256 := rfl
            resolvedAt := hrel.resolvedAt
            resolution := hrel.resolution
            schedulerProvider := hrel.schedulerProvider
            schedulerJobId := hrel.schedulerJobId
            queryProcess := rfl }
      · exact ⟨h.sound.created_le _ hstarted, htime.1 _ hstarted, Nat.succ_pos _,
          fun record hrec => by cases hrec⟩
  · simp [hresol] at hwrite

/-- The process of a query is recorded in the querying stage, which is otherwise as it was. -/
theorem Stored.recordJarvisRecoveryProcess {attemptedAt : Int} {attempts : Nat}
    {process : Option (Fields (Number φ))}
    (h : Stored job task intent created (.querying startedAt attempts attemptedAt process))
    {host : WorkerHost} {started : StartedProcess φ} {time : Moment}
    (htime : attemptedAt ≤ time.val)
    (hwrite : Recovery.recordJarvisRecoveryProcess host job task started time = .ok task') :
    Leaves job task' intent created (.querying startedAt attempts attemptedAt
      (some (executionOwnership host started time))) := by
  have hpend : (viewOf intent).isPending = true := h.isPending
  simp only [Recovery.recordJarvisRecoveryProcess, h.read, hpend, if_true, pure, bind,
    Except.bind, Except.pure, Except.ok.injEq] at hwrite
  subst hwrite
  obtain ⟨hcreate, hstarted, hpos, -⟩ := h.sound
  refine h.update [] [] (by simp [writtenFields]) (by simp) ?_
    ⟨hcreate, hstarted, hpos, fun record hrec => ?_⟩
  · have hview : viewOf (intent.merge
        [("query_process", .dict (executionOwnership host started time))]) =
        { viewOf intent with queryProcess := .dict (executionOwnership host started time) } := by
      simp [viewOf, Fields.merge]
    rw [hview]
    exact { h.describes with queryProcess := rfl }
  · cases hrec
    exact isQueryProcess_executionOwnership host started htime

/-- What a writer does that clears the process of a query: nothing, where there is none. -/
def Clears (job : RoutedJob φ) (task task' : RecoveryTask φ) (intent : Fields (Number φ))
    (created : Int) (stage : Stage φ) : Prop :=
  task' = task ∨ ∃ startedAt attempts attemptedAt process,
    stage = .querying startedAt attempts attemptedAt process ∧
      Leaves job task' intent created (.querying startedAt attempts attemptedAt none)

section

variable (h : Stored job task intent created stage)

include h

/-- Clearing the process of a query keeps the stage of the intent. -/
theorem Stored.clear {record : Fields (Number φ)}
    (hproc : (viewOf intent).queryProcess = .dict record) :
    Clears job task (task.update (storing intent [("query_process", .null)])) intent created
      stage := by
  have hshown := h.describes.queryProcess
  cases stage with
  | querying startedAt attempts attemptedAt process =>
    obtain ⟨hcreate, hstarted, hpos, -⟩ := h.sound
    refine .inr ⟨startedAt, attempts, attemptedAt, process, rfl, ?_⟩
    refine h.update [] [] (by simp [writtenFields]) (by simp) ?_
      ⟨hcreate, hstarted, hpos, fun record hrec => by cases hrec⟩
    have hview : viewOf (intent.merge [("query_process", .null)]) =
        { viewOf intent with queryProcess := .null } := by
      simp [viewOf, Fields.merge]
    rw [hview]
    exact { h.describes with queryProcess := rfl }
  | _ => exact absurd (hproc.symm.trans hshown) (by simp [Stage.process, optionalDict])

theorem Stored.clearJarvisRecoveryProcess
    (hwrite : Recovery.clearJarvisRecoveryProcess job task = .ok task') :
    Clears job task task' intent created stage := by
  simp only [Recovery.clearJarvisRecoveryProcess, h.read, bind, Except.bind, pure, Except.pure]
    at hwrite
  have hshown := h.describes.queryProcess
  rcases hproc : stage.process with _ | _
  · rw [hproc] at hshown
    rw [if_pos (by rw [hshown]; rfl)] at hwrite
    cases hwrite
    exact .inl rfl
  · rw [hproc] at hshown
    rw [if_neg (by rw [hshown]; exact Bool.false_ne_true)] at hwrite
    cases hwrite
    exact h.clear hshown

/-- Terminating the recorded query clears its process and nothing else. -/
theorem Stored.terminateRecordedJarvisRecoveryQuery
    {terminate : Fields (Number φ) → Except RecoveryError Unit}
    (hwrite : Recovery.terminateRecordedJarvisRecoveryQuery job task terminate = .ok task') :
    Clears job task task' intent created stage := by
  simp only [Recovery.terminateRecordedJarvisRecoveryQuery, h.read, bind, Except.bind, pure,
    Except.pure] at hwrite
  have hshown := h.describes.queryProcess
  rcases hproc : stage.process with _ | record
  · rw [hproc] at hshown
    simp only [hshown, optionalDict, Except.ok.injEq] at hwrite
    exact .inl hwrite.symm
  · rw [hproc] at hshown
    simp only [hshown, optionalDict] at hwrite
    rcases hterminate : terminate record with _ | _
    · simp [hterminate] at hwrite
    · simp only [hterminate, Except.ok.injEq] at hwrite
      subst hwrite
      exact h.clear hshown

end

/-- A failed query moves the intent from querying to waiting, with the attempts it had and a time to
retry at. -/
theorem Stored.recordJarvisRecoveryFailure [CaseFold] {startedAt attemptedAt : Int} {attempts : Nat}
    {process : Option (Fields (Number φ))}
    (h : Stored job task intent created (.querying startedAt attempts attemptedAt process))
    {error : String} (herr : error ≠ "") {payload : Option (List UInt8)} {now : Moment}
    (htime : attemptedAt ≤ now.val)
    (hwrite : Recovery.recordJarvisRecoveryFailure job task error (payload.map Sha256.hexdigest) now =
      .ok task') :
    ∃ retryAt, Leaves job task' intent created (.waiting startedAt attempts attemptedAt retryAt
      (boundedErrorDetail error) (payload.map Sha256.hexdigest)) := by
  have hpend : (viewOf intent).isPending = true := h.isPending
  have hstart : (viewOf intent).dispatchState.isStr "started" = true := h.isStarted
  simp only [Recovery.recordJarvisRecoveryFailure, h.read, hpend, hstart, h.attempts, pure, bind,
    Except.bind, Except.pure, Bool.and_self, if_true] at hwrite
  split at hwrite
  · rename_i retryAt hretry
    have hlater : now.val ≤ retryAt.val := by
      rw [Moment.addSeconds] at hretry
      split_ifs at hretry
      cases hretry
      show now.val ≤ now.val + _
      omega
    cases hwrite
    obtain ⟨hcreate, hstarted, hpos, -⟩ := h.sound
    refine ⟨retryAt.val, h.update [] [] (by simp [writtenFields]) (by simp) ?_
      ⟨hcreate, hstarted, hpos, htime.trans hlater, boundedErrorDetail_ne_empty herr,
        fun digest hdig => ?_⟩⟩
    · have hview : viewOf (intent.merge [("state", .str "pending"),
          ("last_error", .str (boundedErrorDetail error)),
          ("next_retry_at", .str retryAt.isoformat),
          ("result_sha256", optionalText (payload.map Sha256.hexdigest)),
          ("query_process", .null)]) =
          { viewOf intent with
            state := .str "pending"
            lastError := .str (boundedErrorDetail error)
            nextRetryAt := .str retryAt.isoformat
            resultSha256 := optionalText (payload.map Sha256.hexdigest)
            queryProcess := .null } := by
        simp [viewOf, Fields.merge]
      rw [hview]
      exact { h.describes with
        state := rfl
        nextRetryAt := timestampOf_isoformat retryAt
        lastError := rfl
        resultSha256 := rfl
        queryProcess := rfl }
    · obtain ⟨bytes, -, rfl⟩ := Option.map_eq_some_iff.1 hdig
      exact Sha256.isHex_hexdigest bytes
  · cases hwrite

/-- The update that both writers of a resolution make. -/
theorem Stored.settle (h : Stored job task intent created stage)
    (hresol : stage.resolution = none) (hstarted : stage.startedAt = some startedAt)
    (htime : stage.Until now.val) {scheduler : Option (String × String)}
    (hmem : resolution ∈ resolutions) (hquery : resolution = "execution_query" → 0 < stage.attempts)
    (hdig : isHex 64 digest.toList = true)
    (hsched : ∀ identity ∈ scheduler, identity.1 ≠ "" ∧ identity.2 ≠ "")
    {back : Fields (Number φ)} (hback : intentKey ∉ back.map Prod.fst) :
    Leaves job (task.update (storing intent
        [("state", .str "resolved"), ("last_error", .null), ("next_retry_at", .null),
          ("result_sha256", .str digest), ("resolved_at", .str now.isoformat),
          ("resolution", .str resolution),
          ("scheduler_provider", optionalText (scheduler.map Prod.fst)),
          ("scheduler_job_id", optionalText (scheduler.map Prod.snd)), ("query_process", .null)] ++
        back)) intent created
      (.resolved startedAt stage.attempts stage.attemptedAt now.val resolution digest scheduler) := by
  have hrel := h.released hresol hstarted
  refine h.update [] back (by simp [writtenFields]) hback ?_
    ⟨h.sound.created_le _ hstarted, htime.1 _ hstarted,
      fun time hatt => ⟨h.sound.started_le_attempted _ hstarted _ hatt, htime.2 _ hatt⟩,
      h.sound.attempts_eq_zero_iff, hmem, hquery, hdig, hsched⟩
  have hview : viewOf (intent.merge [("state", .str "resolved"), ("last_error", .null),
      ("next_retry_at", .null), ("result_sha256", .str digest),
      ("resolved_at", .str now.isoformat), ("resolution", .str resolution),
      ("scheduler_provider", optionalText (scheduler.map Prod.fst)),
      ("scheduler_job_id", optionalText (scheduler.map Prod.snd)), ("query_process", .null)]) =
      { viewOf intent with
        state := .str "resolved"
        lastError := .null
        nextRetryAt := .null
        resultSha256 := .str digest
        resolvedAt := .str now.isoformat
        resolution := .str resolution
        schedulerProvider := optionalText (scheduler.map Prod.fst)
        schedulerJobId := optionalText (scheduler.map Prod.snd)
        queryProcess := .null } := by
    simp [viewOf, Fields.merge]
  rw [hview]
  exact
    { state := rfl
      dispatchState := hrel.dispatchState
      dispatchStartedAt := hrel.dispatchStartedAt
      attempts := h.describes.attempts
      lastAttemptAt := h.describes.lastAttemptAt
      nextRetryAt := rfl
      lastError := rfl
      resultSha256 := rfl
      resolvedAt := timestampOf_isoformat now
      resolution := rfl
      schedulerProvider := rfl
      schedulerJobId := rfl
      queryProcess := rfl }

/-- A refused dispatch resolves a started intent without a scheduler, and only one that was not
resolved before. -/
theorem Stored.refuseJarvisExecutionRecovery (h : Stored job task intent created stage)
    {refusal : Refusal} (htime : stage.Until now.val)
    (hwrite : Recovery.refuseJarvisExecutionRecovery job task refusal resultFile now = .ok task') :
    stage.resolution = none ∧ ∃ startedAt digest, stage.startedAt = some startedAt ∧
      Leaves job task' intent created (.resolved startedAt stage.attempts stage.attemptedAt now.val
        "dispatch_refusal" digest none) := by
  simp only [Recovery.refuseJarvisExecutionRecovery, h.read, h.isPending, h.isStarted, bind,
    Except.bind, pure, Except.pure] at hwrite
  rcases hresol : stage.resolution with _ | _
  · rcases hstarted : stage.startedAt with _ | startedAt
    · simp [hresol, hstarted] at hwrite
    · rcases resultFile with _ | payload
      · simp [hresol, hstarted] at hwrite
      · simp only [hresol, hstarted, Option.isNone_none, Option.isSome_some,
          Bool.and_self, if_true, Except.ok.injEq] at hwrite
        subst hwrite
        refine ⟨rfl, startedAt, Sha256.hexdigest payload, rfl, ?_⟩
        have hmem : "dispatch_refusal" ∈ resolutions := by decide
        have hquery : "dispatch_refusal" = "execution_query" → 0 < stage.attempts :=
          fun h => absurd h (by decide)
        have hnone : ∀ identity ∈ (none : Option (String × String)),
            identity.1 ≠ "" ∧ identity.2 ≠ "" := fun identity h => by cases h
        have hback : intentKey ∉ [("jarvis_dispatch_refusal",
            (.dict refusal.payload : Value (Number φ)))].map Prod.fst := by simp [intentKey]
        exact h.settle hresol hstarted htime hmem hquery
          (Sha256.isHex_hexdigest payload) hnone hback
  · simp [hresol] at hwrite

omit [Installation φ] [Sha256] in
/-- **The scheduler identity of native documents is made of texts that are there.** -/
theorem nativeRuntime_ne_empty (h : Worker.nativeExecutionDocuments value = .ok documents) :
    (∀ s ∈ (nativeRuntime documents).schedulerProvider, s ≠ "") ∧
      ∀ s ∈ (nativeRuntime documents).schedulerJobId, s ≠ "" := by
  obtain ⟨d, hread⟩ := Worker.readFrom_of_nativeExecutionDocuments h
  obtain ⟨record, -, -, -, -, hsound⟩ := hread.record
  have htext : ∀ {text : Option String}, text.all (isNativeText 4096 false) = true →
      ∀ s ∈ text, s ≠ "" := by
    rintro text htext s hs rfl
    rw [Option.mem_def.1 hs] at htext
    exact absurd htext (by decide)
  exact ⟨htext hsound.handle.provider, htext hsound.handle.nativeId⟩

omit [PyFloat φ] [Installation φ] [UtcFormat] in
theorem isHex_of_resultDigest (h : resultDigest resultFile verified = .ok digest) :
    isHex 64 digest.toList = true := by
  unfold resultDigest at h
  rcases verified with _ | _
  · rcases resultFile with _ | payload
    · cases h
    · cases h
      exact Sha256.isHex_hexdigest payload
  · dsimp only at h
    split_ifs at h with hhex
    cases h
    exact hhex

omit [PyFloat φ] [Installation φ] [UtcFormat] [Sha256] in
theorem not_mem_confirmedSidecars (task : RecoveryTask φ) (metadata : NativeRuntime) :
    intentKey ∉ (confirmedSidecars task metadata).map Prod.fst := by
  unfold confirmedSidecars
  split
  · simp [intentKey]
  · simp

omit [UtcFormat] [Sha256] in
/-- A scheduler identity that passes both checks is whole or not there. -/
theorem scheduler_of_mode {metadata : NativeRuntime} (hdirect : ¬(metadata.mode = .direct ∧
      (metadata.schedulerProvider.isSome || metadata.schedulerJobId.isSome) = true))
    (hsched : ¬(metadata.mode = .scheduler ∧
      (metadata.schedulerProvider.isNone || metadata.schedulerJobId.isNone) = true)) :
    ∃ scheduler : Option (String × String), metadata.schedulerProvider = scheduler.map Prod.fst ∧
      metadata.schedulerJobId = scheduler.map Prod.snd := by
  obtain ⟨_, _, mode, provider, job, _⟩ := metadata
  rcases provider with _ | name
  · rcases job with _ | id
    · exact ⟨none, rfl, rfl⟩
    · cases mode <;> simp at hdirect hsched
  · rcases job with _ | id
    · cases mode <;> simp at hdirect hsched
    · exact ⟨some (name, id), rfl, rfl⟩

/-- An intent is resolved once: the documents name its pipeline and its execution, and the stage
keeps the attempts it had. -/
theorem Stored.resolveJarvisExecutionRecovery (h : Stored job task intent created stage)
    (hdocs : Worker.nativeExecutionDocuments value = .ok documents)
    (htime : stage.Until now.val) (hquery : resolution = "execution_query" → 0 < stage.attempts)
    (hwrite : Recovery.resolveJarvisExecutionRecovery job task (nativeRuntime documents) resolution resultFile verified now = .ok task') :
    stage.resolution = none ∧ (viewOf intent).pipelineId = .str documents.executionRecord.pipelineId ∧
      (viewOf intent).executionId = .str documents.executionRecord.executionId ∧
      ∃ startedAt digest scheduler, stage.startedAt = some startedAt ∧
        Leaves job task' intent created (.resolved startedAt stage.attempts stage.attemptedAt
          now.val resolution digest scheduler) := by
  obtain ⟨hprov, hjob⟩ := nativeRuntime_ne_empty hdocs
  simp only [Recovery.resolveJarvisExecutionRecovery, h.read, h.isPending, h.isStarted, bind,
    Except.bind, pure, Except.pure] at hwrite
  split_ifs at hwrite with hguard hdirect hscheduled
  simp only [Bool.not_eq_true, Bool.not_eq_false', Bool.and_eq_true, Option.isNone_iff_eq_none,
    Option.isSome_iff_exists, Value.isStr_iff, List.contains_iff_mem] at hguard
  obtain ⟨⟨⟨⟨hresol, startedAt, hstarted⟩, hpipe⟩, hexec⟩, hmem⟩ := hguard
  obtain ⟨scheduler, hfst, hsnd⟩ := scheduler_of_mode hdirect hscheduled
  split at hwrite
  · cases hwrite
  · rename_i digest hdig
    cases hwrite
    have hresolutions : resolution ∈ resolutions := by
      rcases List.mem_cons.1 hmem with rfl | hmem
      · decide
      · rw [List.mem_singleton.1 hmem]
        decide
    have htexts : ∀ identity ∈ scheduler, identity.1 ≠ "" ∧ identity.2 ≠ "" := fun identity hmem =>
      ⟨hprov _ (hfst ▸ Option.mem_map_of_mem Prod.fst hmem),
        hjob _ (hsnd ▸ Option.mem_map_of_mem Prod.snd hmem)⟩
    refine ⟨hresol, hpipe, hexec, startedAt, digest, scheduler, hstarted, ?_⟩
    rw [hfst, hsnd]
    exact h.settle hresol hstarted htime hresolutions hquery (isHex_of_resultDigest hdig)
      htexts (not_mem_confirmedSidecars task _)

/-! ### Creation -/

omit [Installation φ] [UtcFormat] [Sha256] in
theorem sameValue_self (value : Value (Number φ)) : sameValue value value = true :=
  decide_eq_true rfl

omit [PyFloat φ] [Installation φ] [UtcFormat] [Sha256] in
theorem nonemptyText_eq_some {s : String} (h : nonemptyText value = some s) :
    value = .str s ∧ s ≠ "" := by
  obtain ⟨t, ht, hs⟩ := Option.bind_eq_some_iff.1 h
  split_ifs at hs with hempty
  cases hs
  exact ⟨Value.str?_eq_some.1 ht, hempty⟩

omit [PyFloat φ] [Installation φ] [UtcFormat] [Sha256] in
theorem isDirectoryName_token (token : Token) :
    isDirectoryName (directoryPrefix ++ token.text) = true := by
  have hpre : directoryPrefix.toList.isPrefixOf (directoryPrefix ++ token.text).toList = true := by
    rw [String.toList_append, List.isPrefixOf_iff_prefix]
    exact List.prefix_append _ _
  have hdrop : (directoryPrefix ++ token.text).toList.drop directoryPrefix.toList.length =
      token.text.toList := by
    rw [String.toList_append, List.drop_left]
  rw [isDirectoryName, hpre, hdrop, token.hex]
  rfl

/-- A new intent is bound to the job it was created for, by its route, its pipeline and its
execution. -/
theorem isBound_createdIntent {spec : CallSpec φ} {pipelineId executionId : String}
    (hroute : trustedJarvisMcpRoute job "jarvis_run" = .ok spec)
    (hpipe : spec.arguments.get "pipeline_id" = .str pipelineId)
    (hexec : spec.arguments.get "execution_id" = .str executionId) :
    (viewOf (createdIntent spec job pipelineId executionId createdAt token anchor)).isBound job =
      true := by
  have hself : ∀ s t : String, s = t → (Value.str s : Value (Number φ)).isStr t = true :=
    fun s t h => Value.isStr_iff.2 (congrArg Value.str h)
  have htime : isTimestamp (.str createdAt.isoformat : Value (Number φ)) = true := by
    rw [isTimestamp, timestampOf_isoformat]
    rfl
  have hname : (Value.str (directoryPrefix ++ token.text) : Value (Number φ)).str?.any (fun name =>
      isDirectoryName name && (Value.str s!"{directoryPrefix ++ token.text}/mcp-result.json" :
        Value (Number φ)).isStr s!"{name}/mcp-result.json") = true := by
    rw [Value.str?, Option.any_some, isDirectoryName_token, hself _ _ rfl]
    rfl
  rw [IntentView.isBound, hroute]
  change ((Value.str recoverySchema : Value (Number φ)).isStr recoverySchema &&
    sameValue (.str pipelineId) (spec.arguments.get "pipeline_id") &&
    sameValue (.str executionId) (spec.arguments.get "execution_id") &&
    (Value.str "unknown" : Value (Number φ)).isStr "unknown" &&
    isTimestamp (.str createdAt.isoformat : Value (Number φ)) &&
    sameValue (optionalText spec.expectedServerArtifactDigest : Value (Number φ))
      (optionalText spec.expectedServerArtifactDigest) &&
    (Value.str (textDigest job.idempotencyKey) : Value (Number φ)).isStr
      (textDigest job.idempotencyKey) && _ && true) = true
  rw [hpipe, hexec, sameValue_self, sameValue_self, sameValue_self, hself _ _ rfl,
    hself _ _ rfl, hself _ _ rfl, htime]
  exact (Bool.and_true _).trans hname

/-- **A new intent is one that the reader takes.** -/
theorem stored_of_register {others : Fields (Number φ)}
    (h : jarvisExecutionRecoveryIntent job createdAt token anchor = .ok (some intent)) :
    Stored job (registerExecutionCleanup task others (some intent)) intent createdAt.val
      .prepared := by
  unfold jarvisExecutionRecoveryIntent at h
  split at h
  · cases h
  · rename_i _ hroute
    split at h
    · cases h
    · rename_i _ hpipe
      split at h
      · cases h
      · rename_i _ hexec
        cases h
        constructor
        · exact Fields.get_merge_append_cons _ _ _ (by simp)
        · rfl
        · exact isBound_createdIntent hroute (nonemptyText_eq_some hpipe).1
            (nonemptyText_eq_some hexec).1
        · exact timestampOf_isoformat createdAt
        · exact ⟨rfl, rfl, rfl, rfl, rfl, rfl, rfl, rfl, rfl, rfl, rfl, rfl, rfl⟩
        · exact True.intro

end Writers

end ClioQueue.Recovery
