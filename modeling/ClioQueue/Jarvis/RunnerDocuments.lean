/-
# The documents as the runner reads them

`jarvis_native_execution_documents.py`: `validatedNativeExecutionDocuments` checks the three
documents of an MCP result one after the other, each check a refusal with a message of its own.
-/

import ClioQueue.Jarvis.ProducerContract

namespace ClioQueue.Jarvis

open Wire

variable {φ : Type}

/-- Why the runner refuses a document: `_McpProtocolFailure`, a value that is not hashable, or a
number that overflows a float. -/
inductive RunnerFailure where
  | protocol (message : String)
  | typeError
  | overflowError
deriving DecidableEq, Repr

namespace Runner

/-- Go on under a condition. -/
def ensure (condition : Bool) (message : String) : Except RunnerFailure Unit :=
  if condition then .ok () else .error (.protocol message)

/-- A `dict`. -/
def asDict (value : Value (Number φ)) (message : String) :
    Except RunnerFailure (Fields (Number φ)) :=
  match value with
  | .dict d => .ok d
  | _ => .error (.protocol message)

/-- A `bool`. -/
def asBool (value : Value (Number φ)) (message : String) : Except RunnerFailure Bool :=
  match value with
  | .bool b => .ok b
  | _ => .error (.protocol message)

/-- An `int` that is not negative. -/
def asNatural (value : Value (Number φ)) (message : String) : Except RunnerFailure Nat :=
  match value with
  | .num (.int (.ofNat n)) => .ok n
  | _ => .error (.protocol message)

/-- An `int` or `None`. -/
def asOptionalInt (value : Value (Number φ)) (message : String) :
    Except RunnerFailure (Option Int) :=
  match value with
  | .null => .ok none
  | .num (.int n) => .ok (some n)
  | _ => .error (.protocol message)

/-- A member of a set of strings; what is not hashable is not looked for. -/
def memberOf {α : Type} (text : α → String) (members : List α) (value : Value (Number φ))
    (message : String) : Except RunnerFailure α :=
  match value with
  | .str s =>
    match withText text members s with
    | some a => .ok a
    | none => .error (.protocol message)
  | .list _ | .dict _ => .error .typeError
  | _ => .error (.protocol message)

/-- `_native_text`. -/
def nativeText (value : Value (Number φ)) (field : String) (maximum : Nat)
    (allowNewlines : Bool) : Except RunnerFailure String := do
  match value with
  | .str text =>
    ensure (isBounded maximum text) s!"MCP native JARVIS {field} was invalid"
    ensure (!hasControls allowNewlines text) s!"MCP native JARVIS {field} contained controls"
    pure text
  | _ => .error (.protocol s!"MCP native JARVIS {field} was invalid")

/-- A field that is `None` or a native text. -/
def optionalNativeText (value : Value (Number φ)) (field : String) (maximum : Nat)
    (allowNewlines : Bool) : Except RunnerFailure (Option String) :=
  match value with
  | .null => .ok none
  | value => (nativeText value field maximum allowNewlines).map some

/-- `_native_identity`. -/
def nativeIdentity (value : Value (Number φ)) (field : String) : Except RunnerFailure String := do
  let rendered ← nativeText value field 128 false
  ensure (isPortableIdentity rendered) s!"MCP native JARVIS {field} was not portable"
  pure rendered

/-- `_native_timestamp`. -/
def nativeTimestamp [IsoFormat] (value : Value (Number φ)) (field : String) :
    Except RunnerFailure String := do
  let rendered ← nativeText value field 64 false
  match IsoFormat.fromisoformat (replaceZ rendered) with
  | none => .error (.protocol s!"MCP native JARVIS {field} was invalid")
  | some parsed =>
    ensure parsed.offset.isSome s!"MCP native JARVIS {field} omitted timezone"
    pure rendered

/-- `_validated_native_execution_handle`. -/
def validatedNativeExecutionHandle (value : Value (Number φ)) :
    Except RunnerFailure ExecutionHandle := do
  let typed ← asDict value "MCP native JARVIS execution_handle must be an object"
  ensure (typed.hasExactly handleFields && (typed.get "schema_version").isStr handleSchema)
    "MCP native JARVIS execution_handle schema was invalid"
  let executionId ← nativeIdentity (typed.get "execution_id") "execution_id"
  let pipelineId ← nativeIdentity (typed.get "pipeline_id") "pipeline_id"
  let mode ← memberOf ExecutionMode.text executionModes (typed.get "mode")
    "MCP native JARVIS execution mode was invalid"
  let schedulerProvider ←
    optionalNativeText (typed.get "scheduler_provider") "scheduler_provider" 4096 false
  let schedulerNativeId ←
    optionalNativeText (typed.get "scheduler_native_id") "scheduler_native_id" 4096 false
  let cluster ← optionalNativeText (typed.get "cluster") "cluster" 4096 false
  ensure (mode ≠ .direct ||
      (schedulerProvider.isNone && schedulerNativeId.isNone && cluster.isNone))
    "MCP native direct execution claimed scheduler identity"
  ensure (mode ≠ .scheduler || schedulerProvider.isSome)
    "MCP native scheduler execution omitted its provider"
  ensure (schedulerProvider ≠ some "slurm" || schedulerNativeId.all isSlurmIdentity)
    "MCP native SLURM identity was invalid"
  ensure (schedulerProvider ≠ some "slurm" || cluster.all isSlurmCluster)
    "MCP native SLURM cluster was invalid"
  pure ⟨executionId, pipelineId, mode, schedulerProvider, schedulerNativeId, cluster⟩

/-- The document that a record repeats its handle in. -/
def handleProjection (typed : Fields (Number φ)) : Fields (Number φ) :=
  ("schema_version", .str handleSchema) ::
    (handleFields.drop 1).map fun key => (key, typed.get key)

/-- `value == expected` for a string or `None`. -/
def repeats (value : Value (Number φ)) : Option String → Bool
  | none => value.isNull
  | some s => value.isStr s

/-- The submission repeats the provider, the job and the cluster of its record. -/
def submissionMatches (submission : Fields (Number φ)) (handle : ExecutionHandle) : Bool :=
  repeats (submission.get "provider") handle.schedulerProvider &&
    repeats (submission.get "scheduler_job_id") handle.schedulerNativeId &&
    repeats (submission.get "scheduler_cluster") handle.cluster

/-- The checks of a scheduler submission. -/
def validateSubmission (handle : ExecutionHandle) (submitted : Bool)
    (submission : Fields (Number φ)) : Except RunnerFailure Unit := do
  ensure (handle.mode = .scheduler)
    "MCP native direct execution carried scheduler submission proof"
  ensure ((submission.get "schema_version").isStr submissionSchema &&
      (submission.get "execution_id").isStr handle.executionId &&
      submissionMatches submission handle && (submission.get "submitted").isBool submitted)
    "MCP native scheduler submission proof did not match"
  ensure (handle.schedulerNativeId.isNone ||
      ((submission.get "identity_source").isStr "scheduler_submit_api" && submitted))
    "MCP native scheduler submission identity was not authoritative"
  ensure (handle.schedulerNativeId.isSome || (submission.get "identity_source").isNull)
    "MCP native scheduler submission source claimed no identity"
  submissionPaths.forM fun field => do
    let _ ← optionalNativeText (submission.get field) field 16384 false
    pure ()

/-- The part of `_validated_native_execution_record` about the scheduler submission. -/
def validateProof (handle : ExecutionHandle) (submitted : Bool) (rawSubmission : Value (Number φ)) :
    Except RunnerFailure Unit :=
  match rawSubmission with
  | .null =>
    ensure (handle.schedulerNativeId.isNone && !submitted)
      "MCP native scheduler identity omitted submission proof"
  | .dict submission => validateSubmission handle submitted submission
  | _ => .error (.protocol "MCP native scheduler submission proof must be an object")

variable [PyFloat φ]

/-- `_bounded_finite_json`. -/
def boundedFiniteJson (value : Fields (Number φ)) (label : String) (maximum : Nat) :
    Except RunnerFailure Unit :=
  ensure (isBoundedJson maximum value) s!"MCP {label} exceeded its byte limit"

/-- `_validated_native_execution_record`. -/
def validatedNativeExecutionRecord [IsoFormat] (value : Value (Number φ)) :
    Except RunnerFailure (ExecutionRecord φ) := do
  let typed ← asDict value "MCP native JARVIS execution_record must be an object"
  ensure (typed.hasExactly recordFields && (typed.get "schema_version").isStr recordSchema)
    "MCP native JARVIS execution_record schema was invalid"
  let handle ← validatedNativeExecutionHandle (.dict (handleProjection typed))
  ensure ((typed.get "pipeline_name").isStr handle.pipelineId)
    "MCP native JARVIS pipeline identity did not match"
  let state ← memberOf ExecutionState.text executionStates (typed.get "state")
    "MCP native JARVIS execution state was invalid"
  let submitted ← asBool (typed.get "submitted") "MCP native JARVIS lifecycle flags must be boolean"
  let terminal ← asBool (typed.get "terminal") "MCP native JARVIS lifecycle flags must be boolean"
  ensure (!terminal || terminalStates.contains state)
    "MCP native terminal execution state was invalid"
  ensure (!endedStates.contains state || terminal)
    "MCP native terminal state omitted terminal=true"
  let returnCode ← asOptionalInt (typed.get "return_code")
    "MCP native JARVIS return_code was invalid"
  ensure (state ≠ .completed || returnCode = some 0)
    "MCP native completed execution requires return_code=0"
  ensure (state ≠ .failed || (returnCode ≠ none && returnCode ≠ some 0))
    "MCP native failed execution requires a nonzero return_code"
  let createdAt ← nativeTimestamp (typed.get "created_at") "created_at"
  let updatedAt ← nativeTimestamp (typed.get "updated_at") "updated_at"
  let error ← optionalNativeText (typed.get "error") "error" 16384 true
  let metadata ← asDict (typed.get "metadata")
    "MCP native JARVIS execution metadata must be an object"
  boundedFiniteJson metadata "native JARVIS execution metadata" 48000
  validateProof handle submitted (metadata.get "submission")
  pure
    { executionId := handle.executionId, pipelineId := handle.pipelineId,
      pipelineName := handle.pipelineId, mode := handle.mode,
      schedulerProvider := handle.schedulerProvider,
      schedulerNativeId := handle.schedulerNativeId, cluster := handle.cluster, state := state,
      submitted := submitted, terminal := terminal, createdAt := createdAt,
      updatedAt := updatedAt, returnCode := returnCode, error := error, metadata := metadata }

/-- `_finite_progress_number`. -/
def finiteProgressNumber (value : Value (Number φ)) : Except RunnerFailure (Option φ) :=
  match value with
  | .num x =>
    match x.toFloat with
    | some y => .ok (some y)
    | none => .error .overflowError
  | _ => .ok none

/-- `_validated_native_progress_event`. -/
def validatedNativeProgressEvent (value : Value (Number φ)) :
    Except RunnerFailure (ProgressEvent φ) := do
  let typed ← asDict value "MCP native JARVIS progress event must be an object"
  ensure (typed.hasAll eventRequired && typed.onlyHas (eventRequired ++ eventOptional) &&
      (typed.get "schema_version").isStr eventSchema)
    "MCP native JARVIS progress event schema was invalid"
  let packageName ← nativeText (typed.get "package_name") "package_name" 256 false
  let packageId ← nativeText (typed.get "package_id") "package_id" 256 false
  let executionId ← nativeText (typed.get "execution_id") "execution_id" 256 false
  let label ← nativeText (typed.get "label") "label" 256 false
  let state ← memberOf ProgressState.text progressStates (typed.get "state")
    "MCP native JARVIS progress event state was invalid"
  let sequence ← asNatural (typed.get "sequence")
    "MCP native JARVIS progress event sequence was invalid"
  let observed ← finiteProgressNumber (typed.get "observed_at_epoch")
  ensure (observed.any fun x => 0 ≤ PyFloat.value x)
    "MCP native JARVIS progress timestamp was invalid"
  let current ← finiteProgressNumber (typed.get "current")
  let total ← finiteProgressNumber (typed.get "total")
  ensure ((typed.get "current").isNull || current.any fun x => 0 ≤ PyFloat.value x)
    "MCP native JARVIS progress current was invalid"
  ensure ((typed.get "total").isNull || total.any fun y => 0 < PyFloat.value y &&
      current.any fun x => PyFloat.value x ≤ PyFloat.value y)
    "MCP native JARVIS progress total was invalid"
  ensure ((typed.get "determinate").isBool (current.isSome && total.isSome))
    "MCP native JARVIS determinate flag was invalid"
  let unit ← optionalNativeText (typed.get "unit") "unit" 256 false
  let message ← optionalNativeText (typed.get "message") "message" 4096 false
  let metadata ← asDict (typed.get "metadata")
    "MCP native JARVIS progress metadata must be an object"
  boundedFiniteJson metadata "native JARVIS progress metadata" 48000
  let observedAtEpoch ← ((typed.get "observed_at_epoch").num?).elim
    (.error (.protocol "MCP native JARVIS progress timestamp was invalid")) .ok
  pure
    { packageName := packageName, packageId := packageId, executionId := executionId,
      label := label, state := state, current := (typed.get "current").num?,
      total := (typed.get "total").num?, unit := unit, message := message, sequence := sequence,
      observedAtEpoch := observedAtEpoch, determinate := current.isSome && total.isSome,
      metadata := metadata, given := givenFields typed }

/-- A package of a snapshot, after packages with the identities of `seen`. -/
def validatedNativePackage (executionId : String) (seen : List String)
    (rawPackage : Value (Number φ)) : Except RunnerFailure (PackageProgress φ) := do
  let package ← asDict rawPackage "MCP native JARVIS package progress must be an object"
  ensure (package.hasExactly packageFields)
    "MCP native JARVIS package progress fields were invalid"
  let packageId ← nativeText (package.get "package_id") "package_id" 256 false
  let packageName ← nativeText (package.get "package_name") "package_name" 256 false
  let eventCount ← asNatural (package.get "event_count") "MCP native JARVIS event_count was invalid"
  ensure (!seen.contains packageId) "MCP native JARVIS progress repeated a package_id"
  let latest ← latestEvent (package.get "latest")
  ensure ((eventCount == 0) == latest.isNone) "MCP native JARVIS event_count did not match latest"
  ensure (latest.all fun event => event.packageId = packageId && event.packageName = packageName &&
      event.executionId = executionId)
    "MCP native JARVIS package event identity did not match"
  pure ⟨packageId, packageName, eventCount, latest⟩
where
  /-- The latest event, if there is one. -/
  latestEvent : Value (Number φ) → Except RunnerFailure (Option (ProgressEvent φ))
    | .null => .ok none
    | value => (validatedNativeProgressEvent value).map some

/-- The packages of a snapshot. -/
def validatedNativePackages (executionId : String) (seen : List String) :
    List (Value (Number φ)) → Except RunnerFailure (List (PackageProgress φ))
  | [] => .ok []
  | rawPackage :: rawPackages => do
    let package ← validatedNativePackage executionId seen rawPackage
    let packages ← validatedNativePackages executionId (package.packageId :: seen) rawPackages
    pure (package :: packages)

/-- `_validated_native_progress_snapshot`. -/
def validatedNativeProgressSnapshot (value : Value (Number φ)) :
    Except RunnerFailure (ExecutionProgress φ) := do
  let typed ← asDict value "MCP native JARVIS progress must be an object"
  ensure (typed.hasExactly progressFields && (typed.get "schema_version").isStr progressSchema)
    "MCP native JARVIS progress snapshot schema was invalid"
  let executionId ← nativeIdentity (typed.get "execution_id") "execution_id"
  let pipelineId ← nativeIdentity (typed.get "pipeline_id") "pipeline_id"
  let executionState ← memberOf ExecutionState.text executionStates (typed.get "execution_state")
    "MCP native JARVIS progress state was invalid"
  let terminal ← asBool (typed.get "terminal")
    "MCP native JARVIS progress terminal flag was invalid"
  ensure (!terminal || terminalStates.contains executionState)
    "MCP native JARVIS terminal progress state was invalid"
  ensure (!endedStates.contains executionState || terminal)
    "MCP native JARVIS terminal progress omitted terminal=true"
  match typed.get "packages" with
  | .list rawPackages =>
    let packages ← validatedNativePackages executionId [] rawPackages
    pure ⟨executionId, pipelineId, executionState, terminal, packages⟩
  | _ => .error (.protocol "MCP native JARVIS progress packages must be an array")

/-- `_validated_native_execution_documents`: nothing where none of the three is there. -/
def validatedNativeExecutionDocuments [IsoFormat] (value : Fields (Number φ)) :
    Except RunnerFailure (Option (NativeDocuments φ)) := do
  if documentKeys.all fun key => !value.has key then
    pure none
  else
    ensure (value.hasAll documentKeys) "MCP native JARVIS result omitted execution documents"
    let handle ← validatedNativeExecutionHandle (value.get "execution_handle")
    let record ← validatedNativeExecutionRecord (value.get "execution_record")
    let progress ← validatedNativeProgressSnapshot (value.get "progress")
    ensure (handle = record.handle)
      "MCP native JARVIS handle and record identities did not match"
    ensure (progress.executionId = record.executionId && progress.pipelineId = record.pipelineId &&
        progress.executionState = record.state && progress.terminal = record.terminal)
      "MCP native JARVIS record and progress did not match"
    pure (some ⟨handle, record, progress⟩)

end Runner

end ClioQueue.Jarvis
