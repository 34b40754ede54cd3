/-
# The producer's contract

What JARVIS-CD promises of its native documents, stated of the values they are read into and
of the `dict` they are read from.  `NativeDocuments.ReadFrom` is the whole contract but for
one point: a scheduler submission repeats the provider, the job and the cluster of its record,
and how the three are compared is a parameter, `agrees`.  The runner and the worker are shown
to accept exactly this, each with a comparison of its own.
-/

import ClioQueue.Jarvis.Documents
import ClioQueue.Wire.Text

namespace ClioQueue.Jarvis

open Wire

variable {φ : Type}

/-- A string or `None`. -/
def optionalText {ν : Type} : Option String → Value ν
  | none => .null
  | some s => .str s

/-- An integer or `None`. -/
def optionalInt : Option Int → Value (Number φ)
  | none => .null
  | some n => .num (.int n)

/-! ### The handle -/

/-- A handle with bounded identities and coherent scheduler fields. -/
structure ExecutionHandle.Sound (handle : ExecutionHandle) : Prop where
  executionId : isNativeIdentity handle.executionId = true
  pipelineId : isNativeIdentity handle.pipelineId = true
  provider : handle.schedulerProvider.all (isNativeText 4096 false) = true
  nativeId : handle.schedulerNativeId.all (isNativeText 4096 false) = true
  cluster : handle.cluster.all (isNativeText 4096 false) = true
  direct : handle.mode = .direct →
    handle.schedulerProvider = none ∧ handle.schedulerNativeId = none ∧ handle.cluster = none
  scheduler : handle.mode = .scheduler → handle.schedulerProvider ≠ none
  slurm : handle.schedulerProvider = some "slurm" →
    handle.schedulerNativeId.all isSlurmIdentity = true ∧ handle.cluster.all isSlurmCluster = true

/-- The fields of a `dict` that a handle is read from. -/
structure ExecutionHandle.FieldsOf (d : Fields (Number φ)) (handle : ExecutionHandle) : Prop where
  executionId : d.get "execution_id" = .str handle.executionId
  pipelineId : d.get "pipeline_id" = .str handle.pipelineId
  mode : d.get "mode" = .str handle.mode.text
  provider : d.get "scheduler_provider" = optionalText handle.schedulerProvider
  nativeId : d.get "scheduler_native_id" = optionalText handle.schedulerNativeId
  cluster : d.get "cluster" = optionalText handle.cluster

/-- A handle read from a value. -/
def ExecutionHandle.ReadFrom (value : Value (Number φ)) (handle : ExecutionHandle) : Prop :=
  ∃ d : Fields (Number φ), value = .dict d ∧ d.hasExactly handleFields = true ∧
    d.get "schema_version" = .str handleSchema ∧ handle.FieldsOf d ∧ handle.Sound

/-! ### The record -/

/-- The state of an execution and its terminal flag agree. -/
def Lifecycle (state : ExecutionState) (terminal : Bool) : Prop :=
  (terminal = true → state ∈ terminalStates) ∧ (state ∈ endedStates → terminal = true)

instance (state : ExecutionState) (terminal : Bool) : Decidable (Lifecycle state terminal) :=
  inferInstanceAs (Decidable (_ ∧ _))

section Submission

variable [PyFloat φ]

/-- A `dict` whose text is within a number of bytes. -/
def isBoundedJson (maximum : Nat) (d : Fields (Number φ)) : Bool :=
  byteLength (Value.dumps (.dict d)) ≤ maximum

variable (agrees : Fields (Number φ) → ExecutionRecord φ → Prop)

/-- A submission that proves what its record claims. -/
structure ExecutionRecord.Proven (record : ExecutionRecord φ) (submission : Fields (Number φ)) :
    Prop where
  mode : record.mode = .scheduler
  schema : submission.get "schema_version" = .str submissionSchema
  executionId : submission.get "execution_id" = .str record.executionId
  agrees : agrees submission record
  submitted : submission.get "submitted" = .bool record.submitted
  source : record.schedulerNativeId ≠ none →
    submission.get "identity_source" = .str "scheduler_submit_api" ∧ record.submitted = true
  noSource : record.schedulerNativeId = none → submission.get "identity_source" = .null
  paths : ∀ field ∈ submissionPaths, submission.get field = .null ∨
    ∃ text, submission.get field = .str text ∧ isNativeText 16384 false text = true

/-- A record whose scheduler identity, if it claims one, is proven by its submission. -/
def ExecutionRecord.Backed (record : ExecutionRecord φ) : Prop :=
  match Fields.get record.metadata "submission" with
  | .null => record.schedulerNativeId = none ∧ record.submitted = false
  | .dict submission => record.Proven agrees submission
  | _ => False

variable [IsoFormat]

/-- A coherent record. -/
structure ExecutionRecord.Sound (record : ExecutionRecord φ) : Prop where
  handle : record.handle.Sound
  pipelineName : record.pipelineName = record.pipelineId
  lifecycle : Lifecycle record.state record.terminal
  completed : record.state = .completed → record.returnCode = some 0
  failed : record.state = .failed → record.returnCode ≠ none ∧ record.returnCode ≠ some 0
  createdAt : isNativeTimestamp record.createdAt = true
  updatedAt : isNativeTimestamp record.updatedAt = true
  error : record.error.all (isNativeText 16384 true) = true
  metadata : isBoundedJson 48000 record.metadata = true
  backed : record.Backed agrees

/-- The fields of a `dict` that a record is read from. -/
structure ExecutionRecord.FieldsOf (d : Fields (Number φ)) (record : ExecutionRecord φ) :
    Prop where
  handle : record.handle.FieldsOf d
  pipelineName : d.get "pipeline_name" = .str record.pipelineName
  state : d.get "state" = .str record.state.text
  submitted : d.get "submitted" = .bool record.submitted
  terminal : d.get "terminal" = .bool record.terminal
  createdAt : d.get "created_at" = .str record.createdAt
  updatedAt : d.get "updated_at" = .str record.updatedAt
  returnCode : d.get "return_code" = optionalInt record.returnCode
  error : d.get "error" = optionalText record.error
  metadata : d.get "metadata" = .dict record.metadata

/-- A record read from a value. -/
def ExecutionRecord.ReadFrom (value : Value (Number φ)) (record : ExecutionRecord φ) : Prop :=
  ∃ d : Fields (Number φ), value = .dict d ∧ d.hasExactly recordFields = true ∧
    d.get "schema_version" = .str recordSchema ∧ record.FieldsOf d ∧ record.Sound agrees

end Submission

/-! ### The progress -/

section Progress

variable [PyFloat φ]

/-- A number that is not negative. -/
def isNonnegative (x : Number φ) : Prop := ∃ y, x.toFloat = some y ∧ 0 ≤ PyFloat.value y

/-- A total: positive, and not below the current value, which is there. -/
def isTotalOf (current : Option (Number φ)) (total : Number φ) : Prop :=
  ∃ y, total.toFloat = some y ∧ 0 < PyFloat.value y ∧
    ∃ c ∈ current, ∃ x, c.toFloat = some x ∧ PyFloat.value x ≤ PyFloat.value y

/-- An event whose values are bounded, finite and coherent. -/
structure ProgressEvent.Sound (event : ProgressEvent φ) : Prop where
  packageName : isNativeText 256 false event.packageName = true
  packageId : isNativeText 256 false event.packageId = true
  executionId : isNativeText 256 false event.executionId = true
  label : isNativeText 256 false event.label = true
  observed : isNonnegative event.observedAtEpoch
  current : ∀ x ∈ event.current, isNonnegative x
  total : ∀ x ∈ event.total, isTotalOf event.current x
  determinate : event.determinate = (event.current.isSome && event.total.isSome)
  unit : event.unit.all (isNativeText 256 false) = true
  message : event.message.all (isNativeText 4096 false) = true
  metadata : isBoundedJson 48000 event.metadata = true

/-- A number or `None`. -/
def optionalNumber : Option (Number φ) → Value (Number φ)
  | none => .null
  | some x => .num x

/-- The fields of a `dict` that an event is read from. -/
structure ProgressEvent.FieldsOf (d : Fields (Number φ)) (event : ProgressEvent φ) : Prop where
  packageName : d.get "package_name" = .str event.packageName
  packageId : d.get "package_id" = .str event.packageId
  executionId : d.get "execution_id" = .str event.executionId
  label : d.get "label" = .str event.label
  state : d.get "state" = .str event.state.text
  current : d.get "current" = optionalNumber event.current
  total : d.get "total" = optionalNumber event.total
  unit : d.get "unit" = optionalText event.unit
  message : d.get "message" = optionalText event.message
  sequence : d.get "sequence" = .num (.int event.sequence)
  observedAtEpoch : d.get "observed_at_epoch" = .num event.observedAtEpoch
  determinate : d.get "determinate" = .bool event.determinate
  metadata : d.get "metadata" = .dict event.metadata
  given : event.given = givenFields d

/-- An event read from a value. -/
def ProgressEvent.ReadFrom (value : Value (Number φ)) (event : ProgressEvent φ) : Prop :=
  ∃ d : Fields (Number φ), value = .dict d ∧ d.hasAll eventRequired = true ∧
    d.onlyHas (eventRequired ++ eventOptional) = true ∧
    d.get "schema_version" = .str eventSchema ∧ event.FieldsOf d ∧ event.Sound

/-- An event that belongs to a package of an execution. -/
structure PackageProgress.Owns (executionId : String) (package : PackageProgress φ)
    (event : ProgressEvent φ) : Prop where
  packageId : event.packageId = package.packageId
  packageName : event.packageName = package.packageName
  executionId : event.executionId = executionId

/-- A package whose latest event is its own. -/
structure PackageProgress.Sound (executionId : String) (package : PackageProgress φ) : Prop where
  packageId : isNativeText 256 false package.packageId = true
  packageName : isNativeText 256 false package.packageName = true
  counted : package.eventCount = 0 ↔ package.latest = none
  owns : ∀ event ∈ package.latest, package.Owns executionId event

/-- The fields of a `dict` that a package's progress is read from. -/
structure PackageProgress.FieldsOf (d : Fields (Number φ)) (package : PackageProgress φ) :
    Prop where
  packageId : d.get "package_id" = .str package.packageId
  packageName : d.get "package_name" = .str package.packageName
  eventCount : d.get "event_count" = .num (.int package.eventCount)
  latest : match package.latest with
    | none => d.get "latest" = .null
    | some event => event.ReadFrom (d.get "latest")

/-- A package read from a value. -/
def PackageProgress.ReadFrom (executionId : String) (value : Value (Number φ))
    (package : PackageProgress φ) : Prop :=
  ∃ d : Fields (Number φ), value = .dict d ∧ d.hasExactly packageFields = true ∧
    package.FieldsOf d ∧ package.Sound executionId

/-- The identities of the packages of a snapshot. -/
def packageIds (packages : List (PackageProgress φ)) : List String :=
  packages.map PackageProgress.packageId

/-- A snapshot with unique packages and one identity. -/
structure ExecutionProgress.Sound (progress : ExecutionProgress φ) : Prop where
  executionId : isNativeIdentity progress.executionId = true
  pipelineId : isNativeIdentity progress.pipelineId = true
  lifecycle : Lifecycle progress.executionState progress.terminal
  distinct : (packageIds progress.packages).Nodup
  packages : ∀ package ∈ progress.packages, package.Sound progress.executionId

/-- The fields of a `dict` that a snapshot is read from. -/
structure ExecutionProgress.FieldsOf (d : Fields (Number φ)) (progress : ExecutionProgress φ) :
    Prop where
  executionId : d.get "execution_id" = .str progress.executionId
  pipelineId : d.get "pipeline_id" = .str progress.pipelineId
  executionState : d.get "execution_state" = .str progress.executionState.text
  terminal : d.get "terminal" = .bool progress.terminal
  packages : ∃ items, d.get "packages" = .list items ∧
    List.Forall₂ (PackageProgress.ReadFrom progress.executionId) items progress.packages

/-- A snapshot read from a value. -/
def ExecutionProgress.ReadFrom (value : Value (Number φ)) (progress : ExecutionProgress φ) :
    Prop :=
  ∃ d : Fields (Number φ), value = .dict d ∧ d.hasExactly progressFields = true ∧
    d.get "schema_version" = .str progressSchema ∧ progress.FieldsOf d ∧ progress.Sound

end Progress

/-! ### The three together -/

section Documents

variable [PyFloat φ] [IsoFormat]

/-- Documents of one execution. -/
structure NativeDocuments.Bound (documents : NativeDocuments φ) : Prop where
  handle : documents.executionHandle = documents.executionRecord.handle
  executionId : documents.progress.executionId = documents.executionRecord.executionId
  pipelineId : documents.progress.pipelineId = documents.executionRecord.pipelineId
  state : documents.progress.executionState = documents.executionRecord.state
  terminal : documents.progress.terminal = documents.executionRecord.terminal

/-- The documents read from the entries of a `dict`. -/
structure NativeDocuments.ReadFrom (agrees : Fields (Number φ) → ExecutionRecord φ → Prop)
    (d : Fields (Number φ)) (documents : NativeDocuments φ) : Prop where
  handle : documents.executionHandle.ReadFrom (d.get "execution_handle")
  record : documents.executionRecord.ReadFrom agrees (d.get "execution_record")
  progress : documents.progress.ReadFrom (d.get "progress")
  bound : documents.Bound

end Documents

end ClioQueue.Jarvis
