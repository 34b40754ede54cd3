/-
# The answer to an execution query

`jarvis_execution_query.py`: the runner accepts the answer of `jarvis_get_execution` to the
arguments it was called with, and attests what it found.  The attestation fits the request
(`attests_request`): it says that artifacts were requested exactly if the arguments ask for them.
-/

import ClioQueue.Jarvis.ArtifactDocuments

namespace ClioQueue.Jarvis

open Durable Wire

variable {φ : Type}

/-- `MCP_JARVIS_EXECUTION_QUERY_SCHEMA`. -/
def querySchema : String := "clio-kit.jarvis-execution.v2"

/-- `MCP_JARVIS_EXECUTION_SERVICE_RUNTIMES_SCHEMA`. -/
def serviceRuntimesSchema : String := "jarvis.execution.service-runtimes.v1"

/-- The schema of an attestation. -/
def queryValidationSchema : String := "clio-relay.jarvis-execution-query-validation.v1"

/-- The arguments of a query. -/
def queryArguments : List String :=
  ["pipeline_id", "execution_id", "include_progress", "include_service_runtimes", "artifacts"]

/-- The fields of an answer. -/
def queryFields : List String :=
  ["schema_version", "pipeline_id", "execution_id", "execution_handle", "execution_record",
    "runtime_metadata", "progress", "artifact_page", "service_runtimes"]

/-- The fields of the service runtimes. -/
def serviceRuntimesFields : List String :=
  ["schema_version", "execution_id", "pipeline_id", "execution_state", "terminal",
    "service_runtimes"]

namespace Runner

/-- What was asked. -/
structure ExecutionQuery where
  pipelineId : String
  executionId : String
  includeProgress : Bool
  includeServiceRuntimes : Bool
  artifacts : Option ArtifactQuery

/-- The arguments, read. -/
def executionQueryOf (arguments : Fields (Number φ)) : Except RunnerFailure ExecutionQuery := do
  ensure (arguments.onlyHas queryArguments)
    "MCP JARVIS execution query contained unknown arguments"
  let pipelineId ← nativeIdentity (arguments.get "pipeline_id") "pipeline_id"
  let executionId ← nativeIdentity (arguments.get "execution_id") "execution_id"
  let includeProgress ← asBool ((arguments.lookup "include_progress").getD (.bool true))
    "MCP JARVIS include_progress must be boolean"
  let includeServiceRuntimes ←
    asBool ((arguments.lookup "include_service_runtimes").getD (.bool false))
      "MCP JARVIS include_service_runtimes must be boolean"
  let artifacts ← validatedJarvisArtifactQuery (arguments.get "artifacts")
  pure ⟨pipelineId, executionId, includeProgress, includeServiceRuntimes, artifacts⟩

section Answer

variable [PyFloat φ]

/-- The progress of an answer, if it was asked for. -/
def queriedProgress (query : ExecutionQuery) (record : ExecutionRecord φ)
    (value : Value (Number φ)) : Except RunnerFailure (Option (ExecutionProgress φ)) :=
  if query.includeProgress then do
    let progress ← validatedNativeProgressSnapshot value
    ensure (progress.executionId = query.executionId && progress.pipelineId = query.pipelineId &&
        progress.executionState = record.state && progress.terminal = record.terminal)
      "MCP JARVIS query progress lifecycle did not match"
    pure (some progress)
  else do
    ensure value.isNull "MCP JARVIS query returned progress after it was omitted"
    pure none

/-- The number of the service runtimes of an answer, if they were asked for. -/
def queriedServiceRuntimes (query : ExecutionQuery) (record : ExecutionRecord φ)
    (value : Value (Number φ)) : Except RunnerFailure Nat :=
  if query.includeServiceRuntimes then do
    let document ← asDict value "MCP JARVIS query omitted requested service runtimes"
    match document.get "service_runtimes" with
    | .list services =>
      ensure (document.hasExactly serviceRuntimesFields &&
          (document.get "schema_version").isStr serviceRuntimesSchema &&
          (document.get "execution_id").isStr query.executionId &&
          (document.get "pipeline_id").isStr query.pipelineId &&
          (document.get "execution_state").isStr record.state.text &&
          (document.get "terminal").isBool record.terminal && services.length ≤ 4096 &&
          services.all fun item => (Worker.dict? item).isSome)
        "MCP JARVIS query service runtime envelope was invalid"
      boundedFiniteJson document "JARVIS execution service runtimes" 4194304
      pure services.length
    | _ => .error (.protocol "MCP JARVIS query service runtime envelope was invalid")
  else do
    ensure value.isNull "MCP JARVIS query returned service runtimes after they were omitted"
    pure 0

/-- The page of an answer, if artifacts were asked for. -/
def queriedArtifacts [UrlSplit] (query : ExecutionQuery) (record : ExecutionRecord φ)
    (value : Value (Number φ)) : Except RunnerFailure (Option ArtifactPage) :=
  match query.artifacts with
  | none => do
    ensure value.isNull "MCP JARVIS query returned artifacts without an artifact request"
    pure none
  | some artifacts =>
    (validatedJarvisArtifactPage value artifacts query.pipelineId query.executionId record.state
      record.terminal).map some

end Answer

/-- What the runner attests. -/
structure QueryValidation where
  query : ExecutionQuery
  progressIncluded : Bool
  serviceRuntimesIncluded : Bool
  serviceRuntimeCount : Nat
  returnedArtifactCount : Nat
  nextCursorPresent : Bool

/-- The attestation, as it is written. -/
def QueryValidation.fields (validation : QueryValidation) : Fields (Number φ) :=
  [("schema_version", .str queryValidationSchema),
    ("pipeline_id", .str validation.query.pipelineId),
    ("execution_id", .str validation.query.executionId),
    ("include_progress", .bool validation.query.includeProgress),
    ("progress_included", .bool validation.progressIncluded),
    ("include_service_runtimes", .bool validation.query.includeServiceRuntimes),
    ("service_runtimes_included", .bool validation.serviceRuntimesIncluded),
    ("service_runtime_count", .num (.int validation.serviceRuntimeCount)),
    ("artifacts_requested", .bool validation.query.artifacts.isSome),
    ("artifact_filters", .dict (validation.query.artifacts.elim [] ArtifactQuery.fields)),
    ("returned_artifact_count", .num (.int validation.returnedArtifactCount)),
    ("next_cursor_present", .bool validation.nextCursorPresent)]

/-- `_validated_jarvis_execution_query_result`. -/
def validatedJarvisExecutionQueryResult [PyFloat φ] [IsoFormat] [UrlSplit]
    (value : Option (Fields (Number φ))) (arguments : Fields (Number φ)) :
    Except RunnerFailure QueryValidation := do
  let query ← executionQueryOf arguments
  match value with
  | none => .error (.protocol "MCP JARVIS execution query omitted its structured result")
  | some value =>
    ensure (value.hasExactly queryFields && (value.get "schema_version").isStr querySchema)
      "MCP JARVIS execution query envelope was invalid"
    ensure ((value.get "pipeline_id").isStr query.pipelineId &&
        (value.get "execution_id").isStr query.executionId)
      "MCP JARVIS execution query identity did not match its request"
    let handle ← validatedNativeExecutionHandle (value.get "execution_handle")
    let record ← validatedNativeExecutionRecord (value.get "execution_record")
    ensure (handle = record.handle) "MCP native JARVIS handle and record identities did not match"
    ensure (record.pipelineId = query.pipelineId && record.executionId = query.executionId)
      "MCP JARVIS execution documents did not match the query"
    let runtime ← asDict (value.get "runtime_metadata")
      "MCP JARVIS execution runtime_metadata must be an object"
    boundedFiniteJson runtime "JARVIS execution runtime_metadata" 4194304
    let progress ← queriedProgress query record (value.get "progress")
    let serviceRuntimeCount ← queriedServiceRuntimes query record (value.get "service_runtimes")
    let page ← queriedArtifacts query record (value.get "artifact_page")
    pure
      { query := query
        progressIncluded := progress.isSome
        serviceRuntimesIncluded := !(value.get "service_runtimes").isNull
        serviceRuntimeCount := serviceRuntimeCount
        returnedArtifactCount := page.elim 0 fun page => page.artifactIds.length
        nextCursorPresent := page.any fun page => page.nextCursor.isSome }

/-! ### What is attested -/

theorem artifactQuery_isSome {value : Value (Number φ)} {query : Option ArtifactQuery}
    (h : validatedJarvisArtifactQuery value = .ok query) : query.isSome = !value.isNull := by
  unfold validatedJarvisArtifactQuery at h
  split at h
  · cases h
    rfl
  · simp only [bind_eq_ok, pure_eq_ok] at h
    obtain ⟨-, -, -, -, -, -, -, -, -, -, -, -, -, -, -, -, rfl⟩ := h
    rfl
  · cases h

section Attested

variable [PyFloat φ] {query : ExecutionQuery} {record : ExecutionRecord φ} {value : Value (Number
    φ)}

theorem queriedProgress_isSome {progress : Option (ExecutionProgress φ)}
    (h : queriedProgress query record value = .ok progress) :
    progress.isSome = query.includeProgress := by
  unfold queriedProgress at h
  split_ifs at h with hquery
  · simp only [bind_eq_ok, pure_eq_ok] at h
    obtain ⟨-, -, -, -, rfl⟩ := h
    exact hquery.symm
  · simp only [bind_eq_ok, pure_eq_ok] at h
    obtain ⟨-, -, rfl⟩ := h
    exact (Bool.eq_false_iff.2 hquery).symm

/-- Service runtimes that were not asked for are not there. -/
theorem queriedServiceRuntimes_none {count : Nat}
    (h : queriedServiceRuntimes query record value = .ok count)
    (hquery : query.includeServiceRuntimes = false) : value.isNull = true ∧ count = 0 := by
  rw [queriedServiceRuntimes, hquery] at h
  simp only [Bool.false_eq_true, if_false, bind_eq_ok, ensure_eq_ok, pure_eq_ok] at h
  obtain ⟨-, hv, rfl⟩ := h
  exact ⟨hv, rfl⟩

/-- Artifacts that were not asked for are not there. -/
theorem queriedArtifacts_none [UrlSplit] {page : Option ArtifactPage}
    (h : queriedArtifacts query record value = .ok page) (hquery : query.artifacts = none) :
    page = none := by
  rw [queriedArtifacts, hquery] at h
  simp only [bind_eq_ok, pure_eq_ok] at h
  obtain ⟨-, -, rfl⟩ := h
  rfl

/-- An attestation fits its request. -/
structure QueryValidation.Fits (validation : QueryValidation) : Prop where
  progress : validation.progressIncluded = validation.query.includeProgress
  serviceRuntimes : validation.query.includeServiceRuntimes = false →
    validation.serviceRuntimesIncluded = false ∧ validation.serviceRuntimeCount = 0
  artifacts : validation.query.artifacts = none →
    validation.returnedArtifactCount = 0 ∧ validation.nextCursorPresent = false

/-- **What is attested of an accepted answer** fits the arguments. -/
theorem attests_request [IsoFormat] [UrlSplit] {answer : Option (Fields (Number φ))}
    {arguments : Fields (Number φ)} {validation : QueryValidation}
    (h : validatedJarvisExecutionQueryResult answer arguments = .ok validation) :
    executionQueryOf arguments = .ok validation.query ∧ validation.Fits := by
  rw [validatedJarvisExecutionQueryResult, bind_eq_ok] at h
  obtain ⟨query, hquery, h⟩ := h
  rcases answer with _ | answer
  · cases h
  · simp only [bind_eq_ok, pure_eq_ok] at h
    obtain ⟨-, -, -, -, -, -, _, -, -, -, -, -, -, -, -, -, _, hprog, _, hcnt,
      page, hpage, rfl⟩ := h
    refine ⟨hquery, queriedProgress_isSome hprog, fun hnone => ?_, fun hnone => ?_⟩
    · obtain ⟨hnull, hzero⟩ := queriedServiceRuntimes_none hcnt hnone
      exact ⟨by simp [hnull], hzero⟩
    · obtain rfl := queriedArtifacts_none hpage hnone
      exact ⟨rfl, rfl⟩

end Attested

/-- Artifacts are requested exactly if the arguments ask for them. -/
theorem executionQuery_artifacts {arguments : Fields (Number φ)} {query : ExecutionQuery}
    (h : executionQueryOf arguments = .ok query) :
    query.artifacts.isSome = !(arguments.get "artifacts").isNull := by
  simp only [executionQueryOf, bind_eq_ok, pure_eq_ok] at h
  obtain ⟨-, -, -, -, -, -, -, -, -, -, artifacts, harts, rfl⟩ := h
  exact artifactQuery_isSome harts

end Runner

end ClioQueue.Jarvis
