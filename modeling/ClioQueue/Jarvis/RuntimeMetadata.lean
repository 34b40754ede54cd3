/-
# Runtime metadata and its merge

`JarvisRuntimeMetadata` is what the worker knows of one execution: about twenty fields, each with
the source it came from.  `mergeRuntimeMetadata` takes a new observation into what is known:
document by document by the priority of its source, except that the identity of the execution
stays once a trusted source has given it.
-/

import ClioQueue.Jarvis.NativeTransitions
import ClioQueue.Wire.Merging

namespace ClioQueue.Jarvis

open Wire

variable {φ : Type}

/-- `RuntimeMetadataSource`. -/
inductive RuntimeSource where
  | jarvisMcp | jarvisSidecar | relayReconciliation | untrustedCompatibility | legacyStdout
deriving DecidableEq, Repr

/-- `_source_priority`. -/
def RuntimeSource.priority : RuntimeSource → Nat
  | .legacyStdout => 0
  | .untrustedCompatibility => 0
  | .jarvisSidecar => 10
  | .relayReconciliation => 15
  | .jarvisMcp => 20

/-- `_AUTHORITATIVE_RUNTIME_SOURCES`. -/
def RuntimeSource.authoritative : RuntimeSource → Bool
  | .jarvisMcp => true
  | .jarvisSidecar => true
  | .relayReconciliation => true
  | _ => false

/-- `PackageProvenance`. -/
structure PackageProvenance (φ : Type) where
  name : String
  version : Option String
  packageType : Option String
  packageId : Option String
  source : Option String
  path : Option String
  metadata : JsonDict (Number φ)

/-- `TerminalRuntimeMetadata`. -/
@[ext]
structure TerminalMetadata where
  state : Option String
  terminal : Option Bool
  returncode : Option Int
  reason : Option String
  startedAt : Option String
  finishedAt : Option String
deriving DecidableEq, Repr

/-- `JarvisRuntimeMetadata`. -/
@[ext]
structure RuntimeMetadata (φ : Type) where
  schemaVersion : String
  source : RuntimeSource
  observedAt : Datetime
  executionId : Option String
  pipelineId : Option String
  schedulerProvider : Option String
  schedulerType : Option String
  schedulerJobId : Option String
  schedulerPhase : Option String
  scriptPath : Option String
  hostfilePath : Option String
  outputPath : Option String
  errorPath : Option String
  allocatedNodes : List String
  packages : List (PackageProvenance φ)
  terminal : TerminalMetadata
  fieldSources : List (String × RuntimeSource)
  details : JsonDict (Number φ)

/-- The fields that have a source. -/
inductive RuntimeField where
  | executionId | pipelineId | schedulerProvider | schedulerType | schedulerJobId
  | schedulerPhase | scriptPath | hostfilePath | outputPath | errorPath
  | allocatedNodes | packages
  | state | terminal | returncode | reason | startedAt | finishedAt
deriving DecidableEq, Repr

/-- The key of a field in `field_sources`. -/
def RuntimeField.key : RuntimeField → String
  | .executionId => "execution_id"
  | .pipelineId => "pipeline_id"
  | .schedulerProvider => "scheduler_provider"
  | .schedulerType => "scheduler_type"
  | .schedulerJobId => "scheduler_job_id"
  | .schedulerPhase => "scheduler_phase"
  | .scriptPath => "script_path"
  | .hostfilePath => "hostfile_path"
  | .outputPath => "output_path"
  | .errorPath => "error_path"
  | .allocatedNodes => "allocated_nodes"
  | .packages => "packages"
  | .state => "terminal.state"
  | .terminal => "terminal.terminal"
  | .returncode => "terminal.returncode"
  | .reason => "terminal.reason"
  | .startedAt => "terminal.started_at"
  | .finishedAt => "terminal.finished_at"

/-- The fields, in the order of the code. -/
def runtimeFields : List RuntimeField :=
  [.executionId, .pipelineId, .schedulerProvider, .schedulerType, .schedulerJobId,
    .schedulerPhase, .scriptPath, .hostfilePath, .outputPath, .errorPath, .allocatedNodes,
    .packages, .state, .terminal, .returncode, .reason, .startedAt, .finishedAt]

/-- `_PINNED_RUNTIME_IDENTITY_FIELDS`, in the order of the code. -/
def pinnedFields : List RuntimeField :=
  [.executionId, .pipelineId, .schedulerProvider, .schedulerJobId]

/-- The value of a field. -/
inductive FieldValue (φ : Type) where
  | text (value : Option String)
  | flag (value : Option Bool)
  | code (value : Option Int)
  | nodes (value : List String)
  | packages (value : List (PackageProvenance φ))

/-- A value that is there: not `None`, and not an empty list. -/
def FieldValue.isSet : FieldValue φ → Bool
  | .text value => value.isSome
  | .flag value => value.isSome
  | .code value => value.isSome
  | .nodes value => !value.isEmpty
  | .packages value => !value.isEmpty

/-- The text of a value. -/
def FieldValue.text? : FieldValue φ → Option String
  | .text value => value
  | _ => none

namespace RuntimeMetadata

/-- `getattr(metadata, field_name)`, and of `metadata.terminal`. -/
def get (metadata : RuntimeMetadata φ) : RuntimeField → FieldValue φ
  | .executionId => .text metadata.executionId
  | .pipelineId => .text metadata.pipelineId
  | .schedulerProvider => .text metadata.schedulerProvider
  | .schedulerType => .text metadata.schedulerType
  | .schedulerJobId => .text metadata.schedulerJobId
  | .schedulerPhase => .text metadata.schedulerPhase
  | .scriptPath => .text metadata.scriptPath
  | .hostfilePath => .text metadata.hostfilePath
  | .outputPath => .text metadata.outputPath
  | .errorPath => .text metadata.errorPath
  | .allocatedNodes => .nodes metadata.allocatedNodes
  | .packages => .packages metadata.packages
  | .state => .text metadata.terminal.state
  | .terminal => .flag metadata.terminal.terminal
  | .returncode => .code metadata.terminal.returncode
  | .reason => .text metadata.terminal.reason
  | .startedAt => .text metadata.terminal.startedAt
  | .finishedAt => .text metadata.terminal.finishedAt

/-- `metadata.field_sources.get(field_name)`. -/
def sourceOf (metadata : RuntimeMetadata φ) (field : RuntimeField) : Option RuntimeSource :=
  metadata.fieldSources.lookup field.key

end RuntimeMetadata

/-- Entries for the fields that have a source. -/
def sourceEntries (sourceOf : RuntimeField → Option RuntimeSource) :
    List (String × RuntimeSource) :=
  runtimeFields.filterMap fun field => (sourceOf field).map (Prod.mk field.key)

/-- `_field_sources`. -/
def fieldSourcesOf (metadata : RuntimeMetadata φ) (source : RuntimeSource) :
    List (String × RuntimeSource) :=
  sourceEntries fun field => if (metadata.get field).isSet then some source else none

/-- `str.lower`. -/
class LowerCase where
  lower : String → String

/-- A provider's name, normalized. -/
def normalizedProvider [LowerCase] (name : String) : String :=
  String.ofList ((LowerCase.lower (Worker.strip name)).toList.map fun c => if c = '_' then '-' else c)

/-- `_same_runtime_identity`. -/
def sameRuntimeIdentity [LowerCase] (field : RuntimeField) (current incoming : String) : Bool :=
  if field = .schedulerProvider then normalizedProvider current = normalizedProvider incoming
  else current = incoming

/-- `_authoritative_field_source`. -/
def authoritativeFieldSource (metadata : RuntimeMetadata φ) (field : RuntimeField) :
    Option RuntimeSource :=
  if (metadata.get field).isSet then
    let source := (metadata.sourceOf field).getD metadata.source
    if source.authoritative then some source else none
  else none

/-- Why a merge is refused. -/
inductive MergeError where
  | transition (error : TransitionError)
  | storedDocuments
  | pinned (field : RuntimeField) (current incoming : String)
deriving DecidableEq, Repr

/-- An identity of a trusted source, which stays. -/
def pinnedSource (current : RuntimeMetadata φ) (field : RuntimeField) : Option RuntimeSource :=
  if field ∈ pinnedFields then authoritativeFieldSource current field else none

/-- An identity that stays is not contradicted by a trusted source. -/
def checkPinned [LowerCase] (current incoming : RuntimeMetadata φ) (field : RuntimeField) :
    Except MergeError Unit :=
  match pinnedSource current field, (current.get field).text?,
    authoritativeFieldSource incoming field, (incoming.get field).text? with
  | some _, some pinned, some _, some value =>
    if sameRuntimeIdentity field pinned value then .ok () else .error (.pinned field pinned value)
  | _, _, _, _ => .ok ()

/-- The incoming document goes before the current one. -/
def prefersIncoming (current incoming : RuntimeMetadata φ) : Bool :=
  current.source.priority ≤ incoming.source.priority

/-- The document that goes first. -/
def primaryOf (current incoming : RuntimeMetadata φ) : RuntimeMetadata φ :=
  if prefersIncoming current incoming then incoming else current

/-- The document that goes second. -/
def secondaryOf (current incoming : RuntimeMetadata φ) : RuntimeMetadata φ :=
  if prefersIncoming current incoming then current else incoming

/-- The document that a field is taken from. -/
def selected (current incoming : RuntimeMetadata φ) (field : RuntimeField) : RuntimeMetadata φ :=
  if (pinnedSource current field).isSome then current
  else if ((primaryOf current incoming).get field).isSet then primaryOf current incoming
  else secondaryOf current incoming

/-- The source that a field then has. -/
def selectedSource (current incoming : RuntimeMetadata φ) (field : RuntimeField) :
    Option RuntimeSource :=
  match pinnedSource current field with
  | some source => some source
  | none => (selected current incoming field).sourceOf field

/-- The merged document. -/
def mergedMetadata (current incoming : RuntimeMetadata φ) : RuntimeMetadata φ :=
  let primary := primaryOf current incoming
  let secondary := secondaryOf current incoming
  let chosen := selected current incoming
  { schemaVersion := primary.schemaVersion
    source := primary.source
    observedAt := primary.observedAt
    executionId := (chosen .executionId).executionId
    pipelineId := (chosen .pipelineId).pipelineId
    schedulerProvider := (chosen .schedulerProvider).schedulerProvider
    schedulerType := (chosen .schedulerType).schedulerType
    schedulerJobId := (chosen .schedulerJobId).schedulerJobId
    schedulerPhase := (chosen .schedulerPhase).schedulerPhase
    scriptPath := (chosen .scriptPath).scriptPath
    hostfilePath := (chosen .hostfilePath).hostfilePath
    outputPath := (chosen .outputPath).outputPath
    errorPath := (chosen .errorPath).errorPath
    allocatedNodes := (chosen .allocatedNodes).allocatedNodes
    packages := (chosen .packages).packages
    terminal :=
      { state := (chosen .state).terminal.state
        terminal := (chosen .terminal).terminal.terminal
        returncode := (chosen .returncode).terminal.returncode
        reason := (chosen .reason).terminal.reason
        startedAt := (chosen .startedAt).terminal.startedAt
        finishedAt := (chosen .finishedAt).terminal.finishedAt }
    fieldSources := sourceEntries (selectedSource current incoming)
    details := secondary.details.merge primary.details }

section Merge

variable [PyFloat φ] [IsoFormat]

/-- `_native_documents_from_runtime_metadata`. -/
def nativeDocumentsOf (metadata : RuntimeMetadata φ) :
    Except MergeError (Option (NativeDocuments φ)) :=
  match metadata.details.get "native_execution" with
  | .dict rawDocuments =>
    match Worker.nativeExecutionDocuments (.dict rawDocuments) with
    | .ok documents => .ok (some documents)
    | .error _ => .error .storedDocuments
  | _ => .ok none

/-- `_validate_native_runtime_transition`, on runtime metadata. -/
def validateRuntimeTransition (current incoming : RuntimeMetadata φ) : Except MergeError Unit := do
  let currentDocuments ← nativeDocumentsOf current
  let incomingDocuments ← nativeDocumentsOf incoming
  match currentDocuments, incomingDocuments with
  | some old, some new =>
    match validateNativeTransition old new with
    | .ok _ => .ok ()
    | .error error => .error (.transition error)
  | _, _ => .ok ()

/-- `merge_runtime_metadata`. -/
def mergeRuntimeMetadata [LowerCase] (current : Option (RuntimeMetadata φ))
    (incoming : RuntimeMetadata φ) : Except MergeError (RuntimeMetadata φ) :=
  match current with
  | none => .ok incoming
  | some current => do
    validateRuntimeTransition current incoming
    pinnedFields.forM (checkPinned current incoming)
    pure (mergedMetadata current incoming)

/-- What is known after an observation; one that is refused changes nothing. -/
def afterObservation [LowerCase] (current : Option (RuntimeMetadata φ)) (incoming : RuntimeMetadata φ) :
    Option (RuntimeMetadata φ) :=
  match mergeRuntimeMetadata current incoming with
  | .ok merged => some merged
  | .error _ => current

end Merge

end ClioQueue.Jarvis
