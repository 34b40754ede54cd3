/-
# The documents as the worker reads them

`runtime_metadata_native_documents.py`: strict models, each of which reads its fields by type,
refuses any other field, and then runs a validator over what it read.
-/

import ClioQueue.Jarvis.ProducerContract

namespace ClioQueue.Jarvis

open Wire

variable {φ : Type}

/-- Why a model refuses a document: a field that is missing, of another type or not one of its
own, the `ValueError` of a validator, or a number that overflows a float. -/
inductive ModelInvalid where
  | field (name : String)
  | value (message : String)
  | overflowError
deriving DecidableEq, Repr

namespace Worker

/-! ### Strict fields -/

/-- A `dict` with all the required fields and no others than these and the optional ones. -/
def modelFields (value : Value (Number φ)) (required optional : List String) :
    Except ModelInvalid (Fields (Number φ)) :=
  match value with
  | .dict d =>
    match required.find? fun name => !Fields.has d name with
    | some name => .error (.field name)
    | none =>
      match (Fields.keys d).find? fun name => !(required ++ optional).contains name with
      | some name => .error (.field name)
      | none => .ok d
  | _ => .error (.field "")

/-- `Literal[text]`. -/
def literal (d : Fields (Number φ)) (name text : String) : Except ModelInvalid Unit :=
  if (d.get name).isStr text then .ok () else .error (.field name)

/-- A field of which a reader makes sense. -/
def field {α : Type} (read : Value (Number φ) → Option α) (d : Fields (Number φ)) (name : String) :
    Except ModelInvalid α :=
  match read (d.get name) with
  | some a => .ok a
  | none => .error (.field name)

/-- `Literal["direct", "scheduler"]`. -/
def mode? (value : Value (Number φ)) : Option ExecutionMode :=
  value.str?.bind (withText ExecutionMode.text executionModes)

/-- `str | None`. -/
def optionalStr? : Value (Number φ) → Option (Option String)
  | .null => some none
  | .str s => some (some s)
  | _ => none

/-- `int`. -/
def int? : Value (Number φ) → Option Int
  | .num (.int n) => some n
  | _ => none

/-- `int | None`. -/
def optionalInt? : Value (Number φ) → Option (Option Int)
  | .null => some none
  | .num (.int n) => some (some n)
  | _ => none

/-- `float | int | None`. -/
def optionalNumber? : Value (Number φ) → Option (Option (Number φ))
  | .null => some none
  | .num x => some (some x)
  | _ => none

/-- `dict[str, Any]`. -/
def dict? : Value (Number φ) → Option (Fields (Number φ))
  | .dict d => some d
  | _ => none

/-- `list[...]`. -/
def list? : Value (Number φ) → Option (List (Value (Number φ)))
  | .list items => some items
  | _ => none

/-! ### Validators -/

/-- Go on under a condition. -/
def ensure (condition : Bool) (message : String) : Except ModelInvalid Unit :=
  if condition then .ok () else .error (.value message)

/-- `_validate_native_text`. -/
def validateNativeText (value field : String) (maximum : Nat) (allowNewlines : Bool) :
    Except ModelInvalid Unit := do
  ensure (isBounded maximum value) s!"native JARVIS {field} must be a bounded nonempty string"
  ensure (!hasControls allowNewlines value) s!"native JARVIS {field} contains control characters"

/-- The check of a text that may be `None`. -/
def validateOptionalText (value : Option String) (field : String) (maximum : Nat)
    (allowNewlines : Bool) : Except ModelInvalid Unit :=
  match value with
  | none => .ok ()
  | some text => validateNativeText text field maximum allowNewlines

/-- `_validate_native_identity`. -/
def validateNativeIdentity (value field : String) : Except ModelInvalid Unit := do
  validateNativeText value field 128 false
  ensure (isPortableIdentity value)
    s!"native JARVIS {field} must use portable ASCII identity characters"

/-- `_validate_native_timestamp`. -/
def validateNativeTimestamp [IsoFormat] (value field : String) : Except ModelInvalid Unit := do
  validateNativeText value field 64 false
  match IsoFormat.fromisoformat (replaceZ value) with
  | none => .error (.value s!"native JARVIS {field} must be ISO-8601")
  | some parsed => ensure parsed.offset.isSome s!"native JARVIS {field} must include a timezone"

/-- `_validate_native_json`. -/
def validateNativeJson [PyFloat φ] (value : Fields (Number φ)) (label : String) (maximum : Nat) :
    Except ModelInvalid Unit :=
  ensure (isBoundedJson maximum value) s!"native JARVIS {label} exceeds its byte limit"

/-- A text that is one of an enumeration. -/
def member {α : Type} (text : α → String) (members : List α) (s message : String) :
    Except ModelInvalid α :=
  match withText text members s with
  | some a => .ok a
  | none => .error (.value message)

/-! ### The handle -/

/-- `JarvisExecutionHandleDocument.validate_identity`. -/
def validateIdentity (handle : ExecutionHandle) : Except ModelInvalid Unit := do
  validateNativeIdentity handle.executionId "execution_id"
  validateNativeIdentity handle.pipelineId "pipeline_id"
  validateOptionalText handle.schedulerProvider "scheduler_provider" 4096 false
  validateOptionalText handle.schedulerNativeId "scheduler_native_id" 4096 false
  validateOptionalText handle.cluster "cluster" 4096 false
  ensure (handle.mode ≠ .direct || (handle.schedulerProvider.isNone &&
      handle.schedulerNativeId.isNone && handle.cluster.isNone))
    "direct JARVIS execution cannot claim scheduler identity"
  ensure (handle.mode ≠ .scheduler || handle.schedulerProvider.isSome)
    "scheduler JARVIS execution requires scheduler_provider"
  ensure (handle.schedulerProvider ≠ some "slurm" || handle.schedulerNativeId.all isSlurmIdentity)
    "SLURM JARVIS execution requires a numeric native identity"
  ensure (handle.schedulerProvider ≠ some "slurm" || handle.cluster.all isSlurmCluster)
    "SLURM JARVIS execution cluster was invalid"

/-- The fields that a handle and a record share. -/
def handleOf (d : Fields (Number φ)) : Except ModelInvalid ExecutionHandle := do
  let executionId ← field Value.str? d "execution_id"
  let pipelineId ← field Value.str? d "pipeline_id"
  let mode ← field mode? d "mode"
  let schedulerProvider ← field optionalStr? d "scheduler_provider"
  let schedulerNativeId ← field optionalStr? d "scheduler_native_id"
  let cluster ← field optionalStr? d "cluster"
  pure ⟨executionId, pipelineId, mode, schedulerProvider, schedulerNativeId, cluster⟩

/-- `JarvisExecutionHandleDocument.model_validate`. -/
def executionHandleDocument (value : Value (Number φ)) : Except ModelInvalid ExecutionHandle := do
  let d ← modelFields value handleFields []
  literal d "schema_version" handleSchema
  let handle ← handleOf d
  validateIdentity handle
  pure handle

/-! ### The record -/

/-- `str.isspace` of one character. -/
def isSpace (c : Char) : Bool :=
  (9 ≤ c.toNat && c.toNat ≤ 13) || (28 ≤ c.toNat && c.toNat ≤ 32) || c.toNat = 0x85 ||
    c.toNat = 0xa0 || c.toNat = 0x1680 || (0x2000 ≤ c.toNat && c.toNat ≤ 0x200a) ||
    c.toNat = 0x2028 || c.toNat = 0x2029 || c.toNat = 0x202f || c.toNat = 0x205f ||
    c.toNat = 0x3000

/-- `value.strip()`. -/
def strip (s : String) : String :=
  String.ofList (((s.toList.dropWhile isSpace).reverse.dropWhile isSpace).reverse)

/-- `_optional_str`. -/
def optionalStr : Value (Number φ) → Option String
  | .str s => if strip s = "" then none else some (strip s)
  | _ => none

/-- A path of a submission. -/
def validatePath (value : Value (Number φ)) (name : String) : Except ModelInvalid Unit :=
  match value with
  | .null => .ok ()
  | .str text => validateNativeText text name 16384 false
  | _ => .error (.value s!"native JARVIS scheduler submission {name} was invalid")

/-- `_validate_native_submission`, for a submission that is there. -/
def validateSubmission (record : ExecutionRecord φ) (submission : Fields (Number φ)) :
    Except ModelInvalid Unit := do
  ensure (record.mode = .scheduler)
    "native JARVIS direct execution cannot carry scheduler submission proof"
  ensure ((submission.get "schema_version").isStr submissionSchema)
    "native JARVIS scheduler submission schema did not match"
  ensure ((submission.get "execution_id").isStr record.executionId)
    "native JARVIS scheduler submission execution did not match"
  ensure (optionalStr (submission.get "provider") = record.schedulerProvider)
    "native JARVIS scheduler submission provider did not match"
  ensure (optionalStr (submission.get "scheduler_job_id") = record.schedulerNativeId)
    "native JARVIS scheduler submission identity did not match"
  ensure (optionalStr (submission.get "scheduler_cluster") = record.cluster)
    "native JARVIS scheduler submission cluster did not match"
  ensure ((submission.get "submitted").isBool record.submitted)
    "native JARVIS scheduler submission flag did not match"
  ensure (record.schedulerNativeId.isNone ||
      ((submission.get "identity_source").isStr "scheduler_submit_api" && record.submitted))
    "native JARVIS scheduler identity source was not authoritative"
  ensure (record.schedulerNativeId.isSome || (submission.get "identity_source").isNull)
    "native JARVIS scheduler submission source claimed no native identity"
  submissionPaths.forM fun name => validatePath (submission.get name) name

/-- `_validate_native_submission`. -/
def validateNativeSubmission (record : ExecutionRecord φ) : Except ModelInvalid Unit :=
  match Fields.get record.metadata "submission" with
  | .null =>
    ensure (record.schedulerNativeId.isNone && !record.submitted)
      "native JARVIS scheduler identity omitted submission proof"
  | .dict submission => validateSubmission record submission
  | _ => .error (.value "native JARVIS scheduler submission must be an object")

variable [PyFloat φ]

/-- `JarvisExecutionRecordDocument.validate_record`, after the state was found to be one. -/
def validateRecord [IsoFormat] (record : ExecutionRecord φ) : Except ModelInvalid Unit := do
  ensure (!record.terminal || terminalStates.contains record.state)
    "terminal JARVIS record has a nonterminal state"
  ensure (!endedStates.contains record.state || record.terminal)
    "terminal JARVIS state must set terminal=true"
  ensure (record.state ≠ .completed || record.returnCode = some 0)
    "completed JARVIS record requires return_code=0"
  ensure (record.state ≠ .failed || (record.returnCode ≠ none && record.returnCode ≠ some 0))
    "failed JARVIS record requires a nonzero return_code"
  validateNativeTimestamp record.createdAt "created_at"
  validateNativeTimestamp record.updatedAt "updated_at"
  validateOptionalText record.error "error" 16384 true
  validateNativeJson record.metadata "execution record metadata" 48000
  validateNativeSubmission record

/-- `JarvisExecutionRecordDocument.model_validate`. -/
def executionRecordDocument [IsoFormat] (value : Value (Number φ)) :
    Except ModelInvalid (ExecutionRecord φ) := do
  let d ← modelFields value recordFields []
  literal d "schema_version" recordSchema
  let handle ← handleOf d
  let pipelineName ← field Value.str? d "pipeline_name"
  let stateText ← field Value.str? d "state"
  let submitted ← field Value.bool? d "submitted"
  let terminal ← field Value.bool? d "terminal"
  let createdAt ← field Value.str? d "created_at"
  let updatedAt ← field Value.str? d "updated_at"
  let returnCode ← field optionalInt? d "return_code"
  let error ← field optionalStr? d "error"
  let metadata ← field dict? d "metadata"
  validateIdentity handle
  ensure (pipelineName = handle.pipelineId) "JARVIS execution record pipeline identity did not match"
  let state ← member ExecutionState.text executionStates stateText
    s!"unsupported JARVIS execution state: {stateText}"
  let record : ExecutionRecord φ :=
    { executionId := handle.executionId, pipelineId := handle.pipelineId,
      pipelineName := pipelineName, mode := handle.mode,
      schedulerProvider := handle.schedulerProvider,
      schedulerNativeId := handle.schedulerNativeId, cluster := handle.cluster, state := state,
      submitted := submitted, terminal := terminal, createdAt := createdAt,
      updatedAt := updatedAt, returnCode := returnCode, error := error, metadata := metadata }
  validateRecord record
  pure record

/-! ### The progress -/

/-- `float(x)`. -/
def float (x : Number φ) : Except ModelInvalid φ :=
  match x.toFloat with
  | some y => .ok y
  | none => .error .overflowError

/-- `None if x is None else float(x)`. -/
def optionalFloat : Option (Number φ) → Except ModelInvalid (Option φ)
  | none => .ok none
  | some x => (float x).map some

/-- `JarvisProgressEventDocument.validate_progress`, after the state was found to be one and the
sequence not to be negative. -/
def validateProgress (event : ProgressEvent φ) : Except ModelInvalid Unit := do
  let observed ← float event.observedAtEpoch
  ensure (0 ≤ PyFloat.value observed)
    "JARVIS progress observed_at_epoch must be finite and nonnegative"
  let current ← optionalFloat event.current
  let total ← optionalFloat event.total
  ensure (current.all fun x => 0 ≤ PyFloat.value x)
    "JARVIS progress current must be finite and nonnegative"
  ensure (total.all fun y => 0 < PyFloat.value y) "JARVIS progress total must be finite and positive"
  ensure (total.all fun y => current.any fun x => PyFloat.value x ≤ PyFloat.value y)
    "determinate JARVIS progress requires current within total"
  ensure (event.determinate == (current.isSome && total.isSome))
    "JARVIS progress determinate flag did not match current and total"
  validateOptionalText event.unit "unit" 256 false
  validateOptionalText event.message "message" 4096 false
  validateNativeJson event.metadata "progress metadata" 48000

/-- `JarvisProgressEventDocument.model_validate`. -/
def progressEventDocument (value : Value (Number φ)) :
    Except ModelInvalid (ProgressEvent φ) := do
  let d ← modelFields value eventRequired eventOptional
  literal d "schema_version" eventSchema
  let packageName ← field Value.str? d "package_name"
  let packageId ← field Value.str? d "package_id"
  let executionId ← field Value.str? d "execution_id"
  let label ← field Value.str? d "label"
  let stateText ← field Value.str? d "state"
  let current ← field optionalNumber? d "current"
  let total ← field optionalNumber? d "total"
  let unit ← field optionalStr? d "unit"
  let message ← field optionalStr? d "message"
  let sequence ← field int? d "sequence"
  let observedAtEpoch ← field Value.num? d "observed_at_epoch"
  let determinate ← field Value.bool? d "determinate"
  let metadata ← field dict? d "metadata"
  validateNativeText packageName "package_name" 256 false
  validateNativeText packageId "package_id" 256 false
  validateNativeText executionId "execution_id" 256 false
  validateNativeText label "label" 256 false
  let state ← member ProgressState.text progressStates stateText
    s!"unsupported JARVIS progress state: {stateText}"
  ensure (0 ≤ sequence) "JARVIS progress sequence cannot be negative"
  let event : ProgressEvent φ :=
    { packageName := packageName, packageId := packageId, executionId := executionId,
      label := label, state := state, current := current, total := total, unit := unit,
      message := message, sequence := sequence.toNat, observedAtEpoch := observedAtEpoch,
      determinate := determinate, metadata := metadata, given := givenFields d }
  validateProgress event
  pure event

/-- `JarvisProgressEventDocument | None`. -/
def optionalEvent (value : Value (Number φ)) : Except ModelInvalid (Option (ProgressEvent φ)) :=
  match value with
  | .null => .ok none
  | value => (progressEventDocument value).map some

/-- `JarvisPackageProgressSnapshotDocument.model_validate`. -/
def packageProgressDocument (value : Value (Number φ)) :
    Except ModelInvalid (PackageProgress φ) := do
  let d ← modelFields value packageFields []
  let packageId ← field Value.str? d "package_id"
  let packageName ← field Value.str? d "package_name"
  let eventCount ← field int? d "event_count"
  let latest ← optionalEvent (d.get "latest")
  validateNativeText packageId "package_id" 256 false
  validateNativeText packageName "package_name" 256 false
  ensure (0 ≤ eventCount) "JARVIS package progress event_count cannot be negative"
  ensure ((eventCount == 0) == latest.isNone)
    "JARVIS package progress event_count did not match latest event"
  ensure (latest.all fun event => event.packageId = packageId && event.packageName = packageName)
    "JARVIS package progress identity did not match latest event"
  pure ⟨packageId, packageName, eventCount.toNat, latest⟩

/-- The loop of `validate_snapshot` over the packages. -/
def validatePackages (executionId : String) (packageIds : List String) :
    List (PackageProgress φ) → Except ModelInvalid Unit
  | [] => .ok ()
  | package :: packages => do
    ensure (!packageIds.contains package.packageId)
      "JARVIS execution progress repeated a package_id"
    ensure (package.latest.all fun event => event.executionId = executionId)
      "JARVIS progress event execution identity did not match snapshot"
    validatePackages executionId (package.packageId :: packageIds) packages

/-- `JarvisExecutionProgressDocument.model_validate`. -/
def executionProgressDocument (value : Value (Number φ)) :
    Except ModelInvalid (ExecutionProgress φ) := do
  let d ← modelFields value progressFields []
  literal d "schema_version" progressSchema
  let executionId ← field Value.str? d "execution_id"
  let pipelineId ← field Value.str? d "pipeline_id"
  let stateText ← field Value.str? d "execution_state"
  let terminal ← field Value.bool? d "terminal"
  let rawPackages ← field list? d "packages"
  let packages ← rawPackages.mapM packageProgressDocument
  validateNativeIdentity executionId "execution_id"
  validateNativeIdentity pipelineId "pipeline_id"
  let executionState ← member ExecutionState.text executionStates stateText
    s!"unsupported JARVIS execution state: {stateText}"
  ensure (!terminal || terminalStates.contains executionState)
    "terminal JARVIS progress has a nonterminal execution state"
  ensure (!endedStates.contains executionState || terminal)
    "terminal JARVIS progress state must set terminal=true"
  validatePackages executionId [] packages
  pure ⟨executionId, pipelineId, executionState, terminal, packages⟩

/-- `JarvisNativeExecutionDocuments.model_validate`. -/
def nativeExecutionDocuments [IsoFormat] (value : Value (Number φ)) :
    Except ModelInvalid (NativeDocuments φ) := do
  let d ← modelFields value documentKeys []
  let handle ← executionHandleDocument (d.get "execution_handle")
  let record ← executionRecordDocument (d.get "execution_record")
  let progress ← executionProgressDocument (d.get "progress")
  ensure (handle = record.handle) "JARVIS execution handle and record identities did not match"
  ensure (progress.executionId = record.executionId && progress.pipelineId = record.pipelineId &&
      progress.executionState = record.state && progress.terminal = record.terminal)
    "JARVIS execution record and progress lifecycle did not match"
  pure ⟨handle, record, progress⟩

end Worker

end ClioQueue.Jarvis
