/-
# The writers of a recovery intent

Each writer reads the intent of the task through `durableJarvisExecutionRecovery`, refuses a state
that it is not for, and stores the intent with some fields changed.  They are the functions of four
modules of the worker: what starts a dispatch, what keeps the books of a query, what restarts one,
and what settles the intent from an execution or from a refusal.
-/

import ClioQueue.Recovery.Intent

namespace ClioQueue.Recovery

open Wire Jarvis

variable {φ : Type} [PyFloat φ] [Installation φ] [UtcFormat] [Sha256]

/-- The metadata with another intent. -/
def storing (intent updates : Fields (Number φ)) : Fields (Number φ) :=
  [(intentKey, .dict (intent.merge updates))]

/-! ### Creation -/

/-- The intent that a dispatch starts with, its directory anchored. -/
def createdIntent (spec : CallSpec φ) (job : RoutedJob φ) (pipelineId executionId : String)
    (createdAt : Moment) (token : Token) (anchor : DirectoryAnchor) : Fields (Number φ) :=
  let directory := directoryPrefix ++ token.text
  [("schema_version", .str recoverySchema), ("state", .str "pending"),
    ("pipeline_id", .str pipelineId), ("execution_id", .str executionId),
    ("scheduler_expected", .str "unknown"),
    ("expected_server_artifact_digest", optionalText spec.expectedServerArtifactDigest),
    ("idempotency_key_sha256", .str (textDigest job.idempotencyKey)),
    ("created_at", .str createdAt.isoformat), ("dispatch_state", .str "prepared"),
    ("dispatch_started_at", .null), ("attempts", .num (.int 0)), ("last_attempt_at", .null),
    ("next_retry_at", .null), ("last_error", .null), ("result_sha256", .null),
    ("result_relative_path", .str s!"{directory}/mcp-result.json"),
    ("recovery_directory_name", .str directory),
    ("recovery_directory_anchor", .dict anchor.metadata), ("resolved_at", .null),
    ("resolution", .null), ("scheduler_provider", .null), ("scheduler_job_id", .null),
    ("query_process", .null)]

/-- `_jarvis_execution_recovery_intent`, and the anchor of its directory. -/
def jarvisExecutionRecoveryIntent (job : RoutedJob φ) (createdAt : Moment) (token : Token)
    (anchor : DirectoryAnchor) : Except RecoveryError (Option (Fields (Number φ))) :=
  match trustedJarvisMcpRoute job "jarvis_run" with
  | .error _ => .ok none
  | .ok spec =>
    match nonemptyText (spec.arguments.get "pipeline_id") with
    | none => .error (.configuration "trusted jarvis_run requires a pipeline_id")
    | some pipelineId =>
      match nonemptyText (spec.arguments.get "execution_id") with
      | none => .error (.configuration "trusted jarvis_run requires a durable execution_id")
      | some executionId =>
        .ok (some (createdIntent spec job pipelineId executionId createdAt token anchor))

/-- `register_execution_cleanup`, the metadata: the intent and what else a dispatch registers. -/
def registerExecutionCleanup (task : RecoveryTask φ) (others : Fields (Number φ))
    (intent : Option (Fields (Number φ))) : RecoveryTask φ :=
  task.update (others ++ (intent.map fun intent => (intentKey, .dict intent)).toList)

/-! ### Dispatch -/

/-- `_append_execution_start`. -/
def appendExecutionStart (host : WorkerHost) (job : RoutedJob φ) (task : RecoveryTask φ)
    (process : StartedProcess φ) (startedAt : Moment) : Except RecoveryError (RecoveryTask φ) := do
  let recovery ← durableJarvisExecutionRecovery job task
  let ownership := ("execution_ownership", Value.dict (executionOwnership host process startedAt))
  match recovery with
  | some intent =>
    if (viewOf intent).isPending then
      pure (task.update (ownership :: storing intent
        [("dispatch_state", .str "started"), ("dispatch_started_at", .str startedAt.isoformat)]))
    else pure (task.update [ownership])
  | none => pure (task.update [ownership])

/-! ### The query -/

/-- What `_recover_jarvis_execution` finds, and its attempt if it makes one. -/
inductive RecoveryStart (φ : Type) where
  | absent
  | resolved
  | attempt (intent : Fields (Number φ)) (attempt : Int) (task : RecoveryTask φ)

/-- `_recover_jarvis_execution` up to its attempt. -/
def beginRecoveryAttempt (job : RoutedJob φ) (task : RecoveryTask φ) (attemptedAt : Moment) :
    Except RecoveryError (RecoveryStart φ) := do
  match ← durableJarvisExecutionRecovery job task with
  | none => pure .absent
  | some intent =>
    if (viewOf intent).state.isStr "resolved" then pure .resolved
    else if !(viewOf intent).dispatchState.isStr "started" then
      .error (.unresolved "JARVIS execution recovery refused an unreleased dispatch")
    else
      let attempt := (int? (viewOf intent).attempts).getD 0 + 1
      pure (.attempt intent attempt (task.update (storing intent
        [("attempts", .num (.int attempt)), ("last_attempt_at", .str attemptedAt.isoformat),
          ("last_error", .null), ("next_retry_at", .null), ("result_sha256", .null),
          ("query_process", .null)])))

/-- `_record_jarvis_recovery_process`. -/
def recordJarvisRecoveryProcess (host : WorkerHost) (job : RoutedJob φ) (task : RecoveryTask φ)
    (process : StartedProcess φ) (startedAt : Moment) : Except RecoveryError (RecoveryTask φ) := do
  match ← durableJarvisExecutionRecovery job task with
  | some intent =>
    if (viewOf intent).isPending then
      pure (task.update (storing intent
        [("query_process", .dict (executionOwnership host process startedAt))]))
    else .error (.relay "JARVIS execution recovery process has no pending intent")
  | none => .error (.relay "JARVIS execution recovery process has no pending intent")

/-- `_clear_jarvis_recovery_process`. -/
def clearJarvisRecoveryProcess (job : RoutedJob φ) (task : RecoveryTask φ) :
    Except RecoveryError (RecoveryTask φ) := do
  match ← durableJarvisExecutionRecovery job task with
  | some intent =>
    if (viewOf intent).queryProcess.isNull then pure task
    else pure (task.update (storing intent [("query_process", .null)]))
  | none => pure task

/-- `_terminate_recorded_jarvis_recovery_query`; `terminate` is `_terminate_recorded_execution`. -/
def terminateRecordedJarvisRecoveryQuery (job : RoutedJob φ) (task : RecoveryTask φ)
    (terminate : Fields (Number φ) → Except RecoveryError Unit) :
    Except RecoveryError (RecoveryTask φ) := do
  match ← durableJarvisExecutionRecovery job task with
  | some intent =>
    match (viewOf intent).queryProcess with
    | .null => pure task
    | .dict ownership => do
      terminate ownership
      pure (task.update (storing intent [("query_process", .null)]))
    | _ => .error (.relay s!"JARVIS recovery query ownership is invalid for task {task.taskId}")
  | none => pure task

/-- The delay before the next attempt, in seconds. -/
def retryDelaySeconds (attempts : Int) : Nat := min (5 * 2 ^ min (attempts - 1).toNat 16) 300

/-- `_record_jarvis_recovery_failure`. -/
def recordJarvisRecoveryFailure [CaseFold] (job : RoutedJob φ) (task : RecoveryTask φ)
    (error : String) (resultSha256 : Option String) (now : Moment) :
    Except RecoveryError (RecoveryTask φ) := do
  match ← durableJarvisExecutionRecovery job task with
  | some intent =>
    if (viewOf intent).isPending && (viewOf intent).dispatchState.isStr "started" then
      let attempts := (int? (viewOf intent).attempts).getD 0
      match now.addSeconds (retryDelaySeconds attempts) with
      | some nextRetryAt =>
        pure (task.update (storing intent
          [("state", .str "pending"), ("last_error", .str (boundedErrorDetail error)),
            ("next_retry_at", .str nextRetryAt.isoformat),
            ("result_sha256", optionalText resultSha256), ("query_process", .null)]))
      | none => .error .overflow
    else .error (.relay "JARVIS execution recovery failure is not pending dispatch")
  | none => .error (.relay "JARVIS execution recovery failure has no durable intent")

/-! ### The outcome -/

/-- What the recovery reads of the runtime metadata that native documents give. -/
structure NativeRuntime where
  pipelineId : String
  executionId : String
  mode : ExecutionMode
  schedulerProvider : Option String
  schedulerJobId : Option String
  createdAt : String

/-- `runtime_metadata_from_native_documents`. -/
def nativeRuntime (documents : NativeDocuments φ) : NativeRuntime where
  pipelineId := documents.executionRecord.pipelineId
  executionId := documents.executionRecord.executionId
  mode := documents.executionHandle.mode
  schedulerProvider := documents.executionRecord.schedulerProvider
  schedulerJobId := documents.executionRecord.schedulerNativeId
  createdAt := documents.executionRecord.createdAt

/-- The SHA-256 of the result: one that was verified, or that of the file. -/
def resultDigest (resultFile : Option (List UInt8)) (verified : Option String) :
    Except RecoveryError String :=
  match verified with
  | some digest =>
    if isHex 64 digest.toList then .ok digest
    else .error (.relay "JARVIS execution recovery result hash is invalid")
  | none =>
    match resultFile with
    | some payload => .ok (Sha256.hexdigest payload)
    | none => .error (.relay "JARVIS execution recovery resolution has no result artifact")

/-- `execution_sidecars`, with what is now known of a scheduler. -/
def confirmedSidecars (task : RecoveryTask φ) (metadata : NativeRuntime) : Fields (Number φ) :=
  match metadata.schedulerProvider, metadata.schedulerJobId, task.metadata.get "execution_sidecars" with
  | none, none, .dict sidecars =>
    [("execution_sidecars",
      .dict (Fields.merge sidecars [("scheduler_expected_resolved", .bool false)]))]
  | _, _, _ => []

/-- `_resolve_jarvis_execution_recovery`. -/
def resolveJarvisExecutionRecovery (job : RoutedJob φ) (task : RecoveryTask φ)
    (metadata : NativeRuntime) (resolution : String) (resultFile : Option (List UInt8))
    (verifiedResultSha256 : Option String) (now : Moment) :
    Except RecoveryError (RecoveryTask φ) := do
  match ← durableJarvisExecutionRecovery job task with
  | none => pure task
  | some intent =>
    if !((viewOf intent).isPending && (viewOf intent).dispatchState.isStr "started" &&
        (viewOf intent).pipelineId.isStr metadata.pipelineId &&
        (viewOf intent).executionId.isStr metadata.executionId &&
        ["dispatch_result", "execution_query"].contains resolution) then
      .error (.relay "JARVIS execution recovery resolution did not match its intent")
    else if metadata.mode = .direct ∧
        (metadata.schedulerProvider.isSome || metadata.schedulerJobId.isSome) then
      .error (.relay "direct JARVIS execution recovery carried scheduler identity")
    else if metadata.mode = .scheduler ∧
        (metadata.schedulerProvider.isNone || metadata.schedulerJobId.isNone) then
      .error (.unresolved "scheduled JARVIS execution recovery is awaiting scheduler identity")
    else
      let digest ← resultDigest resultFile verifiedResultSha256
      pure (task.update (storing intent
        [("state", .str "resolved"), ("last_error", .null), ("next_retry_at", .null),
          ("result_sha256", .str digest), ("resolved_at", .str now.isoformat),
          ("resolution", .str resolution),
          ("scheduler_provider", optionalText metadata.schedulerProvider),
          ("scheduler_job_id", optionalText metadata.schedulerJobId), ("query_process", .null)] ++
        confirmedSidecars task metadata))

/-- `_refuse_jarvis_execution_recovery`. -/
def refuseJarvisExecutionRecovery (job : RoutedJob φ) (task : RecoveryTask φ) (refusal : Refusal)
    (resultFile : Option (List UInt8)) (now : Moment) : Except RecoveryError (RecoveryTask φ) := do
  match ← durableJarvisExecutionRecovery job task with
  | none => pure task
  | some intent =>
    if (viewOf intent).isPending && (viewOf intent).dispatchState.isStr "started" then
      match resultFile with
      | none => .error (.relay "JARVIS dispatch refusal has no durable result artifact")
      | some payload =>
        pure (task.update (storing intent
          [("state", .str "resolved"), ("last_error", .null), ("next_retry_at", .null),
            ("result_sha256", .str (Sha256.hexdigest payload)),
            ("resolved_at", .str now.isoformat), ("resolution", .str "dispatch_refusal"),
            ("scheduler_provider", .null), ("scheduler_job_id", .null), ("query_process", .null)] ++
          [("jarvis_dispatch_refusal", .dict refusal.payload)]))
    else .error (.relay "JARVIS dispatch refusal did not match a released dispatch")

end ClioQueue.Recovery
