/-
# The recovery of a lost answer

`_recover_jarvis_execution`: the answer of a started dispatch was lost, so the worker asks JARVIS
for the execution, trusts the answer if the runner attests it, and settles the intent from it.

The worker asks for a page of artifacts, so the runner attests that artifacts were requested; and
the worker trusts only an attestation that they were not.  No answer is ever trusted
(`recovery_refuses_answers`).
-/

import ClioQueue.Jarvis.ExecutionQuery
import ClioQueue.Recovery.IntentRuns

namespace ClioQueue.Recovery

open Durable Wire Jarvis

variable {φ : Type}

/-! ### The query -/

/-- The arguments of the query of an execution. -/
def recoveryArguments (intent : Fields (Number φ)) : Fields (Number φ) :=
  [("pipeline_id", intent.get "pipeline_id"), ("execution_id", intent.get "execution_id"),
    ("artifacts", .dict [("page_size", .num (.int 100))])]

/-- The job with the call of the query in the place of its own. -/
def recoveryJob (job : RoutedJob φ) (intent : Fields (Number φ)) : RoutedJob φ :=
  { job with
    call := job.call.map fun spec =>
      { spec with
        tool := some "jarvis_get_execution"
        arguments := recoveryArguments intent
        timeoutSeconds := some 60 } }

/-- `mcp-result.json`: its bytes, and what `json.loads` makes of them. -/
structure ResultFile (φ : Type) where
  payload : List UInt8
  decoded : Except String (Value (Number φ))

/-- What the runner of a query comes to. -/
inductive QueryOutcome (φ : Type) where
  | raised (kind message : String)
  | exited (returncode : Int) (stdout stderr : String)
  | returned (file : ResultFile φ)

/-- The runner of a query: its process, if one was ready, and what it comes to. -/
structure QueryRun (φ : Type) where
  process : Option (StartedProcess φ)
  outcome : QueryOutcome φ

/-- The class of an error. -/
def RecoveryError.kind : RecoveryError → String
  | .relay _ => "RelayError"
  | .configuration _ => "ConfigurationError"
  | .unresolved _ => "SchedulerSubmissionUnresolvedError"
  | .overflow => "OverflowError"

/-- The text of an error. -/
def RecoveryError.message : RecoveryError → String
  | .relay message => message
  | .configuration message => message
  | .unresolved message => message
  | .overflow => "date value out of range"

/-- The times of one call. -/
structure RecoveryClock [UtcFormat] where
  attemptedAt : Moment
  startedAt : Moment
  failedAt : Moment
  resolvedAt : Moment

section Query

variable [PyFloat φ] [Installation φ] [UtcFormat] [Sha256]

/-- A write that may fail, and then what the runner comes to. -/
def recording (task : RecoveryTask φ) (outcome : QueryOutcome φ)
    (write : Except RecoveryError (RecoveryTask φ)) : RecoveryTask φ × QueryOutcome φ :=
  match write with
  | .ok task => (task, outcome)
  | .error error => (task, .raised error.kind error.message)

/-- `_run_jarvis_execution_recovery_query`, on the metadata of the task: the process is recorded
when it is ready, and cleared when it has ended. -/
def runRecoveryQuery (host : WorkerHost) (job : RoutedJob φ) (task : RecoveryTask φ)
    (startedAt : Moment) (run : QueryRun φ) : RecoveryTask φ × QueryOutcome φ :=
  let started := match run.process with
    | none => (task, run.outcome)
    | some process =>
      recording task run.outcome (recordJarvisRecoveryProcess host job task process startedAt)
  recording started.1 started.2 (clearJarvisRecoveryProcess job started.1)

end Query

/-! ### Trust -/

section Trust

variable [PyFloat φ]

/-- `_trusted_jarvis_execution_query_validation`. -/
def trustedJarvisExecutionQueryValidation (document : Fields (Number φ))
    (pipelineId executionId : Value (Number φ)) : Bool :=
  match Worker.dict? (document.get "result_validation") with
  | none => false
  | some typed =>
    (typed.get "schema_version").isStr queryValidationSchema &&
      sameValue (typed.get "pipeline_id") pipelineId &&
      sameValue (typed.get "execution_id") executionId &&
      (typed.get "include_progress").isBool true && (typed.get "progress_included").isBool true &&
      (typed.get "include_service_runtimes").isBool false &&
      (typed.get "service_runtimes_included").isBool false &&
      sameValue (typed.get "service_runtime_count") (.num (.int 0)) &&
      (typed.get "artifacts_requested").isBool false &&
      sameValue (typed.get "artifact_filters") (.dict []) &&
      sameValue (typed.get "returned_artifact_count") (.num (.int 0)) &&
      (typed.get "next_cursor_present").isBool false

variable [Installation φ]

/-- An answer that is trusted, or why it is not. -/
def trustedAnswer (job : RoutedJob φ) (intent : Fields (Number φ)) (document : Value (Number φ)) :
    Except RecoveryFault (Fields (Number φ)) :=
  match h : trustedJarvisMcpResult (recoveryJob job intent) document "jarvis_get_execution" with
  | .error reason => .error (.untrusted reason (reasoned_result _ _ _ reason h))
  | .ok typed =>
    if trustedJarvisExecutionQueryValidation typed (intent.get "pipeline_id")
        (intent.get "execution_id") then .ok typed
    else .error .unattested

/-- The run result that an answer is projected into. -/
def recoveredRunResult (structured runtime handle record : Fields (Number φ)) : Fields (Number φ) :=
  [("schema_version", .str "clio-kit.jarvis-run.v1"), ("pipeline_id", structured.get "pipeline_id"),
    ("execution_id", structured.get "execution_id"), ("status", record.get "state"),
    ("mode", handle.get "mode"), ("scheduler", .null), ("script_path", runtime.get "script_path"),
    ("wait", .bool false), ("execution_handle", structured.get "execution_handle"),
    ("execution_record", structured.get "execution_record"),
    ("progress", structured.get "progress"),
    ("runtime_metadata", structured.get "runtime_metadata"),
    ("artifact_page", structured.get "artifact_page")]

/-- The document with a run result in the place of the answer. -/
def recoveredDocument (spec : CallSpec φ) (document runResult : Fields (Number φ))
    (digest : String) : Fields (Number φ) :=
  document.merge [("tool", .str "jarvis_run"), ("arguments", .dict spec.arguments),
      ("protocol_result", .dict [("structuredContent", .dict runResult)]),
      ("structured_result", .dict runResult), ("returncode", .num (.int 0)),
      ("timed_out", .bool false), ("protocol_error", .null), ("stdout", .str ""),
      ("stderr", .str ""), ("stdout_truncation", .null), ("stderr_truncation", .null),
      ("result_validation", .null), ("package_progress_bridge", .null),
      ("relay_recovery", .dict
        [("schema_version", .str recoverySchema), ("source_tool", .str "jarvis_get_execution"),
          ("source_result_sha256", .str digest)])]

/-- `_write_recovered_jarvis_run_result`: what is written to `mcp-result.json`. -/
def writeRecoveredJarvisRunResult (job : RoutedJob φ) (document : Fields (Number φ))
    (digest : String) : Except RecoveryError (Fields (Number φ)) :=
  match job.call with
  | none => .error (.relay "recovered JARVIS run result has no trusted run spec")
  | some spec =>
    if spec.tool ≠ some "jarvis_run" then
      .error (.relay "recovered JARVIS run result has no trusted run spec")
    else
      match Worker.dict? (document.get "structured_result") with
      | none => .error (.relay "recovered JARVIS execution query has no structured result")
      | some structured =>
        match Worker.dict? (structured.get "execution_handle"),
          Worker.dict? (structured.get "execution_record"),
          Worker.dict? (structured.get "progress"),
          Worker.dict? (structured.get "runtime_metadata") with
        | some handle, some record, some _, some runtime =>
          if isNullOr (fun path => path.str?.isSome) (Fields.get runtime "script_path") then
            let recovered := recoveredDocument spec document
              (recoveredRunResult structured runtime handle record) digest
            match trustedJarvisMcpResult job (.dict recovered) "jarvis_run" with
            | .error reason =>
              .error (.relay s!"recovered JARVIS run result was not trusted: {reason}")
            | .ok _ => .ok recovered
          else .error (.relay "recovered JARVIS runtime script_path is invalid")
        | _, _, _, _ => .error (.relay "recovered JARVIS execution query omitted native documents")

end Trust

/-! ### The recovery -/

/-- The functions that are given a trusted answer: `runtime_metadata_from_mcp_result_document`
where it finds native documents, and `_persist_runtime_metadata` with the execution whose metadata
is then current. -/
structure RuntimeFunctions (φ : Type) where
  parse : Fields (Number φ) → Except String (Option NativeRuntime)
  persist : RecoveryTask φ → NativeRuntime → Except RecoveryError (RecoveryTask φ × Option String)

/-- What `_recover_jarvis_execution` leaves: the metadata, the run result if it wrote one, and
what it returns. -/
structure Recovered (φ : Type) where
  task : RecoveryTask φ
  runResult : Option (Fields (Number φ))
  outcome : Except RecoveryError Bool

section Recovery

variable [PyFloat φ] [Installation φ] [UtcFormat] [Sha256]

/-- A failure is recorded, and the recovery is given up for now. -/
def giveUp [CaseFold] (job : RoutedJob φ) (task : RecoveryTask φ) (failedAt : Moment)
    (fault : RecoveryFault) (payload : Option (List UInt8)) (message : String) : Recovered φ :=
  match recordJarvisRecoveryFailure job task fault.error (payload.map Sha256.hexdigest)
    failedAt with
  | .error error => ⟨task, none, .error error⟩
  | .ok task => ⟨task, none, .error (.unresolved message)⟩

/-- The part of `_recover_jarvis_execution` after its metadata is persisted. -/
def settleRecovery (job : RoutedJob φ) (task : RecoveryTask φ) (metadata : NativeRuntime)
    (document : Fields (Number φ)) (digest : String) (resolvedAt : Moment) : Recovered φ :=
  match writeRecoveredJarvisRunResult job document digest with
  | .error error => ⟨task, none, .error error⟩
  | .ok runResult =>
    match resolveJarvisExecutionRecovery job task metadata "execution_query" none (some digest)
      resolvedAt with
    | .error error => ⟨task, some runResult, .error error⟩
    | .ok task => ⟨task, some runResult, .ok true⟩

/-- The part of `_recover_jarvis_execution` after an answer is trusted. -/
def adoptExecution [CaseFold] (functions : RuntimeFunctions φ) (job : RoutedJob φ)
    (task : RecoveryTask φ) (clock : RecoveryClock) (intent document : Fields (Number φ))
    (payload : List UInt8) : Recovered φ :=
  match functions.parse (document.merge [("tool", .str "jarvis_run")]) with
  | .error detail =>
    giveUp job task clock.failedAt (.invalidDocuments detail) (some payload)
      "artifact-pinned JARVIS execution recovery documents were invalid"
  | .ok none =>
    giveUp job task clock.failedAt .otherIdentity (some payload)
      "artifact-pinned JARVIS execution recovery identity did not match"
  | .ok (some metadata) =>
    if !((intent.get "pipeline_id").isStr metadata.pipelineId &&
        (intent.get "execution_id").isStr metadata.executionId) then
      giveUp job task clock.failedAt .otherIdentity (some payload)
        "artifact-pinned JARVIS execution recovery identity did not match"
    else
      match instantOf metadata.createdAt with
      | none =>
        ⟨task, none, .error (.relay "native JARVIS execution record created_at is invalid")⟩
      | some createdAt =>
        if !(timestampOf (intent.get "created_at")).any (· ≤ createdAt) then
          giveUp job task clock.failedAt .predates (some payload)
            "artifact-pinned JARVIS recovery refused a pre-existing execution"
        else
          match functions.persist task metadata with
          | .error error => ⟨task, none, .error error⟩
          | .ok (task, current) =>
            if !(current.any fun executionId => (intent.get "execution_id").isStr executionId) then
              giveUp job task clock.failedAt .notPersisted (some payload)
                "artifact-pinned JARVIS execution recovery could not be persisted"
            else if metadata.mode = .scheduler ∧
                (metadata.schedulerProvider.isNone || metadata.schedulerJobId.isNone) then
              giveUp job task clock.failedAt .unscheduled (some payload)
                "scheduled JARVIS execution recovery is awaiting scheduler identity"
            else
              settleRecovery job task metadata document (Sha256.hexdigest payload) clock.resolvedAt

/-- The part of `_recover_jarvis_execution` after the query. -/
def readAnswer [CaseFold] (functions : RuntimeFunctions φ) (job : RoutedJob φ)
    (task : RecoveryTask φ) (clock : RecoveryClock) (intent : Fields (Number φ)) :
    QueryOutcome φ → Recovered φ
  | .raised kind message =>
    giveUp job task clock.failedAt (.transport kind message) none
      "artifact-pinned JARVIS execution recovery transport is unavailable"
  | .exited returncode stdout stderr =>
    let detail := if stderr ≠ "" then stderr else if stdout ≠ "" then stdout else "no detail"
    giveUp job task clock.failedAt (.exited returncode (boundedErrorDetail detail)) none
      "artifact-pinned JARVIS execution recovery did not return a valid execution"
  | .returned file =>
    match file.decoded with
    | .error detail =>
      giveUp job task clock.failedAt (.unreadable detail) (some file.payload)
        "artifact-pinned JARVIS execution recovery result is unavailable"
    | .ok document =>
      match trustedAnswer job intent document with
      | .error fault =>
        giveUp job task clock.failedAt fault (some file.payload)
          "artifact-pinned JARVIS execution recovery result was not trusted"
      | .ok typed => adoptExecution functions job task clock intent typed file.payload

/-- `_recover_jarvis_execution`. -/
def recoverJarvisExecution [CaseFold] (functions : RuntimeFunctions φ) (host : WorkerHost)
    (job : RoutedJob φ) (task : RecoveryTask φ) (clock : RecoveryClock) (run : QueryRun φ) :
    Recovered φ :=
  match beginRecoveryAttempt job task clock.attemptedAt with
  | .error error => ⟨task, none, .error error⟩
  | .ok .absent => ⟨task, none, .ok false⟩
  | .ok .resolved => ⟨task, none, .ok true⟩
  | .ok (.attempt intent _ task) =>
    let queried := runRecoveryQuery host job task clock.startedAt run
    readAnswer functions job queried.1 clock intent queried.2

/-! ### What is left of an intent -/

variable {job : RoutedJob φ} {task task' : RecoveryTask φ} {intent updates : Fields (Number φ)}

/-- The intent of a task is pending. -/
def IsPending (task : RecoveryTask φ) : Prop :=
  ∃ intent, task.metadata.get intentKey = .dict intent ∧ (viewOf intent).isPending = true

omit [UtcFormat] in
theorem get_of_durable [IsoFormat] (h : durableJarvisExecutionRecovery job task = .ok (some intent)) :
    task.metadata.get intentKey = .dict intent := by
  unfold durableJarvisExecutionRecovery at h
  split at h
  · cases h
  · rename_i _ hfound
    split_ifs at h
    cases h
    exact hfound
  · cases h

omit [PyFloat φ] [Installation φ] [UtcFormat] [Sha256] in
/-- An update that says nothing of the state of an intent. -/
theorem isPending_update (h : (viewOf intent).isPending = true)
    (hkeys : "state" ∉ updates.map Prod.fst) :
    IsPending (task.update (storing intent updates)) := by
  refine ⟨intent.merge updates, ?_, ?_⟩
  · exact (Fields.get_assign _ _ _ _).trans (if_pos rfl)
  · have hst : (viewOf (intent.merge updates)).state = (viewOf intent).state :=
      Fields.get_merge_of_not_mem _ hkeys
    rw [IntentView.isPending, hst]
    exact h

theorem isPending_recordJarvisRecoveryProcess {host : WorkerHost} {process : StartedProcess φ}
    {startedAt : Moment}
    (hwrite : recordJarvisRecoveryProcess host job task process startedAt = .ok task') :
    IsPending task' := by
  obtain ⟨found, -, hwrite⟩ := bind_eq_ok.1 hwrite
  rcases found with _ | _
  · cases hwrite
  · dsimp only at hwrite
    split_ifs at hwrite with hpending
    cases hwrite
    exact isPending_update hpending (by simp)

theorem isPending_clearJarvisRecoveryProcess (h : IsPending task)
    (hwrite : clearJarvisRecoveryProcess job task = .ok task') : IsPending task' := by
  obtain ⟨found, hfound, hwrite⟩ := bind_eq_ok.1 hwrite
  rcases found with _ | _
  · cases hwrite
    exact h
  · dsimp only at hwrite
    split_ifs at hwrite
    · cases hwrite
      exact h
    · obtain ⟨_, hstored, hpending⟩ := h
      cases hstored.symm.trans (get_of_durable hfound)
      cases hwrite
      exact isPending_update hpending (by simp)

theorem isPending_recordJarvisRecoveryFailure [CaseFold] {error : String} {digest : Option String}
    {now : Moment}
    (hwrite : recordJarvisRecoveryFailure job task error digest now = .ok task') :
    IsPending task' := by
  obtain ⟨found, -, hwrite⟩ := bind_eq_ok.1 hwrite
  rcases found with _ | intent
  · cases hwrite
  · dsimp only at hwrite
    split_ifs at hwrite
    split at hwrite
    · cases hwrite
      refine ⟨_, (Fields.get_assign _ _ _ _).trans (if_pos rfl), ?_⟩
      refine Value.isStr_iff.2 ?_
      exact Fields.get_merge_append_cons intent [] (.str "pending") (by simp)
    · cases hwrite

/-- An outcome that leaves the intent pending and the dispatch without a result. -/
structure Recovered.Fails (recovered : Recovered φ) : Prop where
  raises : ∃ error, recovered.outcome = .error error
  pending : IsPending recovered.task
  unwritten : recovered.runResult = none

theorem fails_giveUp [CaseFold] (h : IsPending task) (failedAt : Moment) (fault : RecoveryFault)
    (payload : Option (List UInt8)) (message : String) :
    (giveUp job task failedAt fault payload message).Fails := by
  unfold giveUp
  split
  · rename_i error _
    exact ⟨⟨error, rfl⟩, h, rfl⟩
  · rename_i failed hfail
    exact ⟨⟨_, rfl⟩, isPending_recordJarvisRecoveryFailure hfail, rfl⟩

omit [PyFloat φ] [Installation φ] [UtcFormat] [Sha256] in
/-- After a write the runner has come to what it came to, or the write failed. -/
theorem recording_cases {outcome : QueryOutcome φ} {write : Except RecoveryError (RecoveryTask φ)}
    (h : IsPending task) (hwrite : ∀ task', write = .ok task' → IsPending task') :
    IsPending (recording task outcome write).1 ∧
      ((recording task outcome write).2 = outcome ∨
        ∃ kind message, (recording task outcome write).2 = .raised kind message) := by
  rcases write with _ | task'
  · exact ⟨h, .inr ⟨_, _, rfl⟩⟩
  · exact ⟨hwrite task' rfl, .inl rfl⟩

/-- A query leaves the task pending; what it returns is the outcome of its run, or the error that
recording it raised. -/
theorem runRecoveryQuery_cases (job : RoutedJob φ) (h : IsPending task) (host : WorkerHost) (startedAt : Moment)
    (run : QueryRun φ) :
    IsPending (runRecoveryQuery host job task startedAt run).1 ∧
      ((runRecoveryQuery host job task startedAt run).2 = run.outcome ∨
        ∃ kind message, (runRecoveryQuery host job task startedAt run).2 = .raised kind message) := by
  unfold runRecoveryQuery
  rcases run.process with _ | process
  · exact recording_cases h fun _ => isPending_clearJarvisRecoveryProcess h
  · dsimp only
    generalize hwrite : recordJarvisRecoveryProcess host job task process startedAt = write
    obtain ⟨hpending, hout⟩ := recording_cases h fun task' htask' =>
      isPending_recordJarvisRecoveryProcess (hwrite.trans htask')
    generalize recording task run.outcome write = started at hpending hout
    obtain ⟨hcleared, hlast⟩ := recording_cases hpending
      fun task' (htask' : clearJarvisRecoveryProcess job started.1 = .ok task') =>
        isPending_clearJarvisRecoveryProcess hpending htask'
    refine ⟨hcleared, ?_⟩
    rcases hlast with hsame | hraised
    · rw [hsame]
      exact hout
    · exact .inr hraised

/-! ### No answer is trusted -/

/-- The answer of a query, as the runner writes it: what it accepts for the arguments, with its
attestation. -/
structure AttestedAnswer [UrlSplit] (arguments : Fields (Number φ)) where
  document : Fields (Number φ)
  structured : Fields (Number φ)
  validation : Runner.QueryValidation
  answer : document.get "structured_result" = .dict structured
  attestation : document.get "result_validation" = .dict validation.fields
  accepted : Runner.validatedJarvisExecutionQueryResult (some structured) arguments = .ok validation

omit [Installation φ] [Sha256] in
/-- The attestation says that artifacts were requested, which the worker does not trust. -/
theorem AttestedAnswer.not_trusted [UrlSplit] (h : AttestedAnswer (recoveryArguments intent))
    (pipelineId executionId : Value (Number φ)) :
    trustedJarvisExecutionQueryValidation h.document pipelineId executionId = false := by
  have hrequested : h.validation.query.artifacts.isSome = true :=
    Runner.executionQuery_artifacts (Runner.attests_request h.accepted).1
  have harts : (h.validation.fields : Fields (Number φ)).get "artifacts_requested" =
      .bool true := congrArg Value.bool hrequested
  simp [trustedJarvisExecutionQueryValidation, h.attestation, Worker.dict?, harts, Value.isBool]

/-- What succeeds returns this value. -/
def Returns {α : Type} (value : α) (result : Except String α) : Prop :=
  ∀ found, result = .ok found → found = value

omit [PyFloat φ] [Installation φ] [UtcFormat] [Sha256] in
theorem Returns.pure {α : Type} (value : α) : Returns value (pure value) :=
  fun _ hfound => (pure_eq_ok.1 hfound).symm

omit [PyFloat φ] [Installation φ] [UtcFormat] [Sha256] in
theorem Returns.bind {α β : Type} {value : β} {first : Except String α}
    {next : α → Except String β} (h : ∀ a, first = .ok a → Returns value (next a)) :
    Returns value (first >>= next) := by
  intro found hfound
  obtain ⟨a, ha, hnext⟩ := bind_eq_ok.1 hfound
  exact h a ha found hnext

omit [UtcFormat] [Sha256] in
theorem returns_identity (document : Fields (Number φ)) (tool : String) :
    Returns document (mcpResultIdentityMatches job (.dict document) tool) := by
  refine .bind fun spec _ => .bind fun _ _ => .bind fun _ _ => .bind fun _ _ => .bind fun _ _ =>
    .bind fun _ _ => .bind fun _ _ => .bind fun _ _ => ?_
  split
  all_goals exact .bind fun _ _ => .pure document

omit [UtcFormat] [Sha256] in
/-- What is trusted is the result itself. -/
theorem returns_result (document : Fields (Number φ)) (tool : String) :
    Returns document (trustedJarvisMcpResult job (.dict document) tool) := by
  refine .bind fun typed htyped => .bind fun _ _ => ?_
  obtain rfl := returns_identity document tool typed htyped
  split
  · exact .bind fun _ _ => .pure typed
  · exact .pure typed
  · refine .bind fun _ hnone => ?_
    cases hnone

omit [Sha256] in
theorem trustedAnswer_error [UrlSplit] (job : RoutedJob φ)
    (answer : AttestedAnswer (recoveryArguments intent)) :
    ∃ fault, trustedAnswer job intent (.dict answer.document) = .error fault := by
  unfold trustedAnswer
  split
  · exact ⟨_, rfl⟩
  · rename_i _ htyped
    rw [returns_result _ _ _ htyped, answer.not_trusted]
    exact ⟨_, rfl⟩

/-- A pending intent of a started dispatch is tried again. -/
theorem begins (hread : durableJarvisExecutionRecovery job task = .ok (some intent))
    (hpending : (viewOf intent).isPending = true)
    (hstarted : (viewOf intent).dispatchState.isStr "started" = true) (attemptedAt : Moment) :
    ∃ attempt attempted, beginRecoveryAttempt job task attemptedAt =
      .ok (.attempt intent attempt attempted) ∧ IsPending attempted := by
  have hresolved : (viewOf intent).state.isStr "resolved" = false := by
    rw [Value.isStr_iff.1 hpending]
    rfl
  generalize hstart : beginRecoveryAttempt job task attemptedAt = start
  simp only [beginRecoveryAttempt, hread, bind, Except.bind, hresolved, hstarted, Bool.false_eq_true,
    if_false, Bool.not_true, pure, Except.pure] at hstart
  subst hstart
  exact ⟨_, _, rfl, isPending_update hpending (by simp)⟩

/-- **No answer to its own query recovers an execution**: whatever the runner accepts for the
arguments that the worker sends, the worker fails, the intent stays pending, and no run result is
written. -/
theorem recovery_refuses_answers [CaseFold] [UrlSplit] {functions : RuntimeFunctions φ}
    {host : WorkerHost} {clock : RecoveryClock} {run : QueryRun φ} {file : ResultFile φ}
    (hread : durableJarvisExecutionRecovery job task = .ok (some intent))
    (hpending : (viewOf intent).isPending = true)
    (hstarted : (viewOf intent).dispatchState.isStr "started" = true)
    (answer : AttestedAnswer (recoveryArguments intent)) (hdecoded : file.decoded = .ok (.dict answer.document))
    (hreturned : run.outcome = .returned file) :
    (recoverJarvisExecution functions host job task clock run).Fails := by
  obtain ⟨_, attempted, hbegun, hatt⟩ :=
    begins hread hpending hstarted clock.attemptedAt
  obtain ⟨hleft, hout⟩ :=
    runRecoveryQuery_cases job hatt host clock.startedAt run
  rw [recoverJarvisExecution, hbegun]
  dsimp only
  generalize runRecoveryQuery host job attempted clock.startedAt run = queried at hleft hout
  rcases hout with hsame | ⟨_, _, hraised⟩
  · obtain ⟨_, hfault⟩ := trustedAnswer_error job answer
    rw [hsame, hreturned, readAnswer, hdecoded]
    dsimp only
    rw [hfault]
    exact fails_giveUp hleft _ _ _ _
  · rw [hraised]
    exact fails_giveUp hleft _ _ _ _

end Recovery

/-! ### An answer that is lost for good -/

/-- No URL is split. -/
@[reducible]
def sampleUrlSplit : UrlSplit where
  urlsplit _ := none

/-- The intent of the sample, its dispatch started. -/
def startedIntent : Fields (Number Int) := (storedIntent startedTask).getD []

/-- The identity of the execution. -/
def directIdentity : Fields (Number Int) :=
  [("execution_id", .str "execution"), ("pipeline_id", .str "pipeline"), ("mode", .str "direct"),
    ("scheduler_provider", .null), ("scheduler_native_id", .null), ("cluster", .null)]

/-- JARVIS's answer: the execution is completed, and has no artifacts. -/
def completedExecution : Fields (Number Int) :=
  [("schema_version", .str querySchema), ("pipeline_id", .str "pipeline"),
    ("execution_id", .str "execution"),
    ("execution_handle", .dict (("schema_version", .str handleSchema) :: directIdentity)),
    ("execution_record", .dict (("schema_version", .str recordSchema) :: directIdentity ++
      [("pipeline_name", .str "pipeline"), ("state", .str "completed"), ("submitted", .bool false),
        ("terminal", .bool true), ("created_at", .str "2026-01-01T00:00:05Z"),
        ("updated_at", .str "2026-01-01T00:00:05Z"), ("return_code", .num (.int 0)),
        ("error", .null), ("metadata", .dict [])])),
    ("runtime_metadata", .dict []),
    ("progress", .dict
      [("schema_version", .str progressSchema), ("execution_id", .str "execution"),
        ("pipeline_id", .str "pipeline"), ("execution_state", .str "completed"),
        ("terminal", .bool true), ("packages", .list [])]),
    ("artifact_page", .dict
      [("producer_schema_version", .str artifactPageSchema), ("pipeline_id", .str "pipeline"),
        ("execution_id", .str "execution"), ("execution_state", .str "completed"),
        ("terminal", .bool true), ("artifacts", .list []),
        ("matching_artifact_count", .num (.int 0)), ("returned_artifact_count", .num (.int 0)),
        ("next_cursor", .null)]),
    ("service_runtimes", .null)]

/-- What the runner attests of it. -/
def completedValidation : Runner.QueryValidation where
  query := ⟨"pipeline", "execution", true, false, some ⟨none, none, none, none, 100, none⟩⟩
  progressIncluded := true
  serviceRuntimesIncluded := false
  serviceRuntimeCount := 0
  returnedArtifactCount := 0
  nextCursorPresent := false

/-- What the runner writes. -/
def completedDocument : Fields (Number Int) :=
  [("server", .str "clio-kit"), ("server_args", textList ["mcp-server", "jarvis"]),
    ("env_from", .dict []), ("operation", .str "tools/call"),
    ("tool", .str "jarvis_get_execution"), ("arguments", .dict (recoveryArguments startedIntent)),
    ("protocol_result", .dict [("structuredContent", .dict completedExecution)]),
    ("structured_result", .dict completedExecution), ("server_artifact", .dict []),
    ("expected_server_artifact_digest", .str "digest"),
    ("observed_server_artifact_digest", .str "digest"), ("returncode", .num (.int 0)),
    ("timed_out", .bool false), ("protocol_error", .null),
    ("result_validation", .dict completedValidation.fields),
    ("expected_registered_contract", .str "clio-kit-jarvis-user-v3.7.2")]

/-- The file of the runner: the document, and its text. -/
def completedFile : ResultFile Int where
  payload := Utf8.encode (@Value.dumps Int sampleFloat (.dict completedDocument))
  decoded := .ok (.dict completedDocument)

/-- The runner returned it. -/
def completedRun : QueryRun Int := ⟨some sampleProcess, .returned completedFile⟩

/-- All at the same time. -/
def sampleClock : @RecoveryClock sampleUtcFormat :=
  @RecoveryClock.mk sampleUtcFormat sampleMoment sampleMoment sampleMoment sampleMoment

/-- The native documents of a result. -/
def parsedRuntime [IsoFormat] [PyFloat φ] (document : Fields (Number φ)) :
    Except String (Option NativeRuntime) :=
  match Worker.dict? (document.get "structured_result") with
  | none => .ok none
  | some structured =>
    match Worker.nativeExecutionDocuments
      (.dict (documentKeys.map fun key => (key, structured.get key))) with
    | .ok documents => .ok (some (nativeRuntime documents))
    | .error _ => .error "invalid documents"

/-- A task without runtime metadata takes that of the execution. -/
def sampleFunctions : RuntimeFunctions Int where
  parse := @parsedRuntime Int sampleUtcFormat.toIsoFormat sampleFloat
  persist task metadata := .ok (task, some metadata.executionId)

/-- The recovery of the sample. -/
def sampleRecovered : Recovered Int :=
  @recoverJarvisExecution Int sampleFloat sampleInstallation sampleUtcFormat sampleSha256
    sampleCaseFold sampleFunctions sampleHost sampleJob startedTask sampleClock completedRun

set_option maxRecDepth 8000 in
theorem accepted_completed :
    @Runner.validatedJarvisExecutionQueryResult Int sampleFloat sampleUtcFormat.toIsoFormat
      sampleUrlSplit (some completedExecution) (recoveryArguments startedIntent) =
      .ok completedValidation := by
  rfl

/-- The answer, with its attestation. -/
def completedAnswer : @AttestedAnswer Int sampleFloat sampleUtcFormat sampleUrlSplit
    (recoveryArguments startedIntent) :=
  @AttestedAnswer.mk Int sampleFloat sampleUtcFormat sampleUrlSplit _ completedDocument
    completedExecution completedValidation rfl rfl accepted_completed

set_option maxRecDepth 8000 in
theorem read_started : @durableJarvisExecutionRecovery Int sampleFloat sampleInstallation
    sampleUtcFormat.toIsoFormat sampleSha256 sampleJob startedTask = .ok (some startedIntent) := by
  rfl

/-- The sample recovery fails although it is answered with a completed execution. -/
theorem recovery_refuses_sample : sampleRecovered.Fails :=
  @recovery_refuses_answers Int sampleFloat sampleInstallation sampleUtcFormat sampleSha256
    sampleJob startedTask startedIntent sampleCaseFold sampleUrlSplit sampleFunctions sampleHost
    sampleClock completedRun completedFile read_started (by decide +kernel)
    (by decide +kernel) completedAnswer rfl rfl

set_option maxRecDepth 8000 in
/-- **A completed execution is not recovered**: the result is that of the pinned route, JARVIS's
documents are accepted, the execution follows the intent and is a direct one, and still the worker
records a failure. -/
theorem completed_execution_not_recovered :
    @durableJarvisExecutionRecovery Int sampleFloat sampleInstallation sampleUtcFormat.toIsoFormat
        sampleSha256 sampleJob startedTask = .ok (some startedIntent) ∧
      @Runner.validatedJarvisExecutionQueryResult Int sampleFloat sampleUtcFormat.toIsoFormat
        sampleUrlSplit (some completedExecution) (recoveryArguments startedIntent) =
        .ok completedValidation ∧
      @trustedJarvisMcpResult Int sampleFloat sampleInstallation
        (recoveryJob sampleJob startedIntent) (.dict completedDocument) "jarvis_get_execution" =
        .ok completedDocument ∧
      sampleFunctions.parse completedDocument =
        .ok (some ⟨"pipeline", "execution", .direct, none, none, "2026-01-01T00:00:05Z"⟩) ∧
      sampleRecovered.outcome =
        .error (.unresolved "artifact-pinned JARVIS execution recovery result was not trusted") ∧
      (viewOf ((storedIntent sampleRecovered.task).getD [])).lastError.isNull = false :=
  ⟨read_started, accepted_completed, rfl, rfl, rfl, rfl⟩

end ClioQueue.Recovery
