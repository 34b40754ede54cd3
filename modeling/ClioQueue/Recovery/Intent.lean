/-
# The recovery intent of a JARVIS run

Before the worker dispatches a JARVIS run it stores an intent in the metadata of the task:
which execution it starts, and what is known of it since.  The intent is a `dict` of 23 fields.
`durableJarvisExecutionRecovery` is its one reader, which refuses an intent with any pair of fields
that do not go together; the writers each read the intent, change some of its fields and store it.
-/

import ClioQueue.Identifiers
import ClioQueue.Recovery.ErrorDetail
import ClioQueue.Recovery.McpRoute

namespace ClioQueue.Recovery

open Wire Jarvis

variable {φ : Type}

/-! ### Times, digests and names -/

/-- `datetime.isoformat` of the times in UTC: the instants, in microseconds, that there is a
`datetime` of, and their texts, from which they are read back. -/
class UtcFormat extends IsoFormat where
  isMoment : Int → Bool
  isoformat : Int → String
  fromisoformat_isoformat : ∀ instant, isMoment instant = true →
    fromisoformat (replaceZ (isoformat instant)) = some ⟨instant, some 0⟩

/-- A time in UTC. -/
abbrev Moment [UtcFormat] : Type := {instant : Int // UtcFormat.isMoment instant = true}

/-- `datetime.isoformat`. -/
def Moment.isoformat [UtcFormat] (moment : Moment) : String := UtcFormat.isoformat moment.val

/-- `moment + timedelta(seconds=seconds)`, which may overflow. -/
def Moment.addSeconds [UtcFormat] (moment : Moment) (seconds : Nat) : Option Moment :=
  if h : UtcFormat.isMoment (moment.val + seconds * 1000000) = true then some ⟨_, h⟩ else none

/-- `[0-9a-f]{n}`. -/
def isHex (n : Nat) (text : List Char) : Bool :=
  text.length = n && text.all fun c => ('0' ≤ c && c ≤ '9') || ('a' ≤ c && c ≤ 'f')

/-- `hashlib.sha256(payload).hexdigest()`. -/
class Sha256 where
  hexdigest : List UInt8 → String
  isHex_hexdigest : ∀ payload, isHex 64 (hexdigest payload).toList = true

/-- `hashlib.sha256(text.encode("utf-8")).hexdigest()`. -/
def textDigest [Sha256] (text : String) : String := Sha256.hexdigest (Durable.Utf8.encode text.toList)

/-- `secrets.token_hex(16)`. -/
structure Token where
  text : String
  hex : isHex 32 text.toList = true

/-- The start of the name of a recovery directory. -/
def directoryPrefix : String := ".jarvis-execution-recovery-"

/-- The name of a recovery directory. -/
def isDirectoryName (name : String) : Bool :=
  directoryPrefix.toList.isPrefixOf name.toList &&
    isHex 32 (name.toList.drop directoryPrefix.toList.length)

/-- `_RecoveryDirectoryAnchor`. -/
structure DirectoryAnchor where
  device : Int
  inode : Int
  owner : Int
  mode : Int

/-- `as_metadata`. -/
def DirectoryAnchor.metadata (anchor : DirectoryAnchor) : Fields (Number φ) :=
  [("device", .num (.int anchor.device)), ("inode", .num (.int anchor.inode)),
    ("owner", .num (.int anchor.owner)), ("mode", .num (.int anchor.mode))]

/-- The fields of an anchor. -/
def anchorFields : List String := ["device", "inode", "owner", "mode"]

/-- The integer of an `int`. -/
def int? : Value (Number φ) → Option Int
  | .num (.int n) => some n
  | _ => none

/-- `_recovery_directory_anchor_metadata_is_valid`. -/
def isAnchorMetadata (value : Value (Number φ)) : Bool :=
  match value with
  | .dict typed =>
    Fields.hasExactly typed anchorFields &&
      anchorFields.all fun name => (int? (Fields.get typed name)).isSome
  | _ => false

/-- `_recovery_timestamp` of a string. -/
def timestampOf [IsoFormat] (value : Value (Number φ)) : Option Int := value.str?.bind instantOf

/-! ### The process of a dispatch or of a query -/

/-- `process_start_identity`, where the process was observed. -/
inductive StartIdentity where
  | linux (ticks : String)
  | posix (started : String)
  | windows (created : String)

/-- The text of a start identity. -/
def StartIdentity.text : StartIdentity → String
  | .linux ticks => s!"linux-proc-start:{ticks}"
  | .posix started => s!"posix-ps-start:{started}"
  | .windows created => s!"windows-filetime:{created}"

/-- The machine and the registration of a worker. -/
structure WorkerHost where
  hostname : String
  named : hostname ≠ ""
  windows : Bool
  endpointId : Option DurableRecordId

/-- A process that was started: its number, what is seen of its start and what contains it. -/
structure StartedProcess (φ : Type) where
  processId : Nat
  positive : 0 < processId
  startIdentity : Option StartIdentity
  containment : Fields (Number φ)

/-- `process_start_identity(pid) or f"process-not-observed:{pid}"`. -/
def StartedProcess.identity (process : StartedProcess φ) : String :=
  match process.startIdentity with
  | some identity => identity.text
  | none => s!"process-not-observed:{process.processId}"

/-- `clio-relay.execution-ownership.v1`. -/
def ownershipSchema : String := "clio-relay.execution-ownership.v1"

/-- The fields of an ownership record. -/
def ownershipFields : List String :=
  ["schema_version", "pid", "hostname", "process_start_identity", "process_group_id", "started_at",
    "endpoint_id", "containment"]

/-- The ownership record of a process. -/
def executionOwnership [UtcFormat] (host : WorkerHost) (process : StartedProcess φ)
    (startedAt : Moment) : Fields (Number φ) :=
  [("schema_version", .str ownershipSchema), ("pid", .num (.int process.processId)),
    ("hostname", .str host.hostname), ("process_start_identity", .str process.identity),
    ("process_group_id", if host.windows then .null else .num (.int process.processId)),
    ("started_at", .str startedAt.isoformat),
    ("endpoint_id", optionalText (host.endpointId.map DurableRecordId.value)),
    ("containment", .dict process.containment)]

/-- An `int` above zero. -/
def isPositive (value : Value (Number φ)) : Bool := (int? value).any (0 < ·)

/-- A text that is not empty. -/
def isText (value : Value (Number φ)) : Bool := value.str?.any (· ≠ "")

/-- A `dict`. -/
def isDict : Value (Number φ) → Bool
  | .dict _ => true
  | _ => false

/-- `_recovery_query_process_is_valid`. -/
def isQueryProcess [IsoFormat] (value : Fields (Number φ)) (attemptedAt : Int) : Bool :=
  value.hasExactly ownershipFields && (value.get "schema_version").isStr ownershipSchema &&
    isPositive (value.get "pid") && isText (value.get "hostname") &&
    isText (value.get "process_start_identity") &&
    ((value.get "process_group_id").isNull || isPositive (value.get "process_group_id")) &&
    (timestampOf (value.get "started_at")).any (attemptedAt ≤ ·) &&
    ((value.get "endpoint_id").isNull || isText (value.get "endpoint_id")) &&
    isDict (value.get "containment")

/-! ### The intent -/

/-- `MCP_JARVIS_EXECUTION_RECOVERY_SCHEMA`. -/
def recoverySchema : String := "clio-relay.jarvis-execution-recovery.v1"

/-- Why a step of the recovery fails. -/
inductive RecoveryError where
  | relay (message : String)
  | configuration (message : String)
  | unresolved (message : String)
  | overflow
deriving DecidableEq, Repr

/-- A `RelayTask`: its id and its metadata. -/
structure RecoveryTask (φ : Type) where
  taskId : String
  metadata : Fields (Number φ)

/-- `update_task_metadata`. -/
def RecoveryTask.update (task : RecoveryTask φ) (updates : Fields (Number φ)) : RecoveryTask φ :=
  { task with metadata := task.metadata.merge updates }

/-- The key of the intent in the metadata of its task. -/
def intentKey : String := "jarvis_execution_recovery"

/-- The fields of an intent. -/
def intentFields : List String :=
  ["schema_version", "state", "pipeline_id", "execution_id", "scheduler_expected",
    "expected_server_artifact_digest", "idempotency_key_sha256", "created_at", "dispatch_state",
    "dispatch_started_at", "attempts", "last_attempt_at", "next_retry_at", "last_error",
    "result_sha256", "result_relative_path", "recovery_directory_name",
    "recovery_directory_anchor", "resolved_at", "resolution", "scheduler_provider",
    "scheduler_job_id", "query_process"]

/-- What the reader takes out of an intent. -/
structure IntentView (φ : Type) where
  schemaVersion : Value (Number φ)
  state : Value (Number φ)
  pipelineId : Value (Number φ)
  executionId : Value (Number φ)
  schedulerExpected : Value (Number φ)
  expectedServerArtifactDigest : Value (Number φ)
  idempotencyKeySha256 : Value (Number φ)
  createdAt : Value (Number φ)
  dispatchState : Value (Number φ)
  dispatchStartedAt : Value (Number φ)
  attempts : Value (Number φ)
  lastAttemptAt : Value (Number φ)
  nextRetryAt : Value (Number φ)
  lastError : Value (Number φ)
  resultSha256 : Value (Number φ)
  resultRelativePath : Value (Number φ)
  recoveryDirectoryName : Value (Number φ)
  recoveryDirectoryAnchor : Value (Number φ)
  resolvedAt : Value (Number φ)
  resolution : Value (Number φ)
  schedulerProvider : Value (Number φ)
  schedulerJobId : Value (Number φ)
  queryProcess : Value (Number φ)

/-- The fields of an intent, taken out of it. -/
def viewOf (intent : Fields (Number φ)) : IntentView φ where
  schemaVersion := intent.get "schema_version"
  state := intent.get "state"
  pipelineId := intent.get "pipeline_id"
  executionId := intent.get "execution_id"
  schedulerExpected := intent.get "scheduler_expected"
  expectedServerArtifactDigest := intent.get "expected_server_artifact_digest"
  idempotencyKeySha256 := intent.get "idempotency_key_sha256"
  createdAt := intent.get "created_at"
  dispatchState := intent.get "dispatch_state"
  dispatchStartedAt := intent.get "dispatch_started_at"
  attempts := intent.get "attempts"
  lastAttemptAt := intent.get "last_attempt_at"
  nextRetryAt := intent.get "next_retry_at"
  lastError := intent.get "last_error"
  resultSha256 := intent.get "result_sha256"
  resultRelativePath := intent.get "result_relative_path"
  recoveryDirectoryName := intent.get "recovery_directory_name"
  recoveryDirectoryAnchor := intent.get "recovery_directory_anchor"
  resolvedAt := intent.get "resolved_at"
  resolution := intent.get "resolution"
  schedulerProvider := intent.get "scheduler_provider"
  schedulerJobId := intent.get "scheduler_job_id"
  queryProcess := intent.get "query_process"

/-! ### The reader -/

section Reader

variable [PyFloat φ] [Installation φ] [IsoFormat] [Sha256]

/-- A field that may be `None`. -/
def isNullOr (p : Value (Number φ) → Bool) (value : Value (Number φ)) : Bool :=
  value.isNull || p value

/-- A text with a time in it. -/
def isTimestamp (value : Value (Number φ)) : Bool := (timestampOf value).isSome

/-- A SHA-256. -/
def isDigest (value : Value (Number φ)) : Bool := value.str?.any fun s => isHex 64 s.toList

/-- The resolutions. -/
def resolutions : List String := ["dispatch_result", "execution_query", "dispatch_refusal"]

/-- `late < early` is false of two times, where both are there. -/
def notBefore (late early : Option Int) : Bool :=
  match late, early with
  | some late, some early => early ≤ late
  | _, _ => true

namespace IntentView

variable (view : IntentView φ)

/-- The part of the reader's first condition about the fields that no writer changes. -/
def isBound (job : RoutedJob φ) : Bool :=
  match trustedJarvisMcpRoute job "jarvis_run" with
  | .error _ => false
  | .ok spec =>
    view.schemaVersion.isStr recoverySchema &&
      sameValue view.pipelineId (spec.arguments.get "pipeline_id") &&
      sameValue view.executionId (spec.arguments.get "execution_id") &&
      view.schedulerExpected.isStr "unknown" && isTimestamp view.createdAt &&
      sameValue view.expectedServerArtifactDigest (optionalText spec.expectedServerArtifactDigest) &&
      view.idempotencyKeySha256.isStr (textDigest job.idempotencyKey) &&
      view.recoveryDirectoryName.str?.any (fun name => isDirectoryName name &&
        view.resultRelativePath.isStr s!"{name}/mcp-result.json") &&
      isAnchorMetadata view.recoveryDirectoryAnchor

/-- The part of the reader's first condition about the other fields. -/
def isTyped : Bool :=
  (view.state.isStr "pending" || view.state.isStr "resolved") &&
    (view.dispatchState.isStr "prepared" || view.dispatchState.isStr "started") &&
    isNullOr isTimestamp view.dispatchStartedAt &&
    (!view.dispatchState.isStr "prepared" || view.dispatchStartedAt.isNull) &&
    (!view.dispatchState.isStr "started" || isTimestamp view.dispatchStartedAt) &&
    (int? view.attempts).any (0 ≤ ·) && isNullOr isTimestamp view.lastAttemptAt &&
    isNullOr isTimestamp view.nextRetryAt && isNullOr isTimestamp view.resolvedAt &&
    isNullOr isText view.lastError && isNullOr isDigest view.resultSha256 &&
    isNullOr (fun value => value.str?.any resolutions.contains) view.resolution &&
    isNullOr isText view.schedulerProvider && isNullOr isText view.schedulerJobId &&
    isNullOr isDict view.queryProcess

/-- `intent["state"] == "pending"`. -/
def isPending : Bool := view.state.isStr "pending"

/-- `intent["dispatch_state"] == "started"`, with its time. -/
def isStarted : Bool := view.dispatchState.isStr "started" && isTimestamp view.dispatchStartedAt

/-- Whether there was an attempt. -/
def isTried : Bool := (int? view.attempts).any (0 < ·)

/-- The condition on an attempt: it follows the start of the dispatch. -/
def attemptAgrees : Bool :=
  if view.isTried then
    view.isStarted && isTimestamp view.lastAttemptAt &&
      notBefore (timestampOf view.lastAttemptAt) (timestampOf view.dispatchStartedAt)
  else !isTimestamp view.lastAttemptAt

/-- The conditions on a time to try again and on the last error. -/
def retryAgrees : Bool :=
  (!isTimestamp view.nextRetryAt || view.isPending && view.isTried &&
      isTimestamp view.lastAttemptAt &&
      notBefore (timestampOf view.nextRetryAt) (timestampOf view.lastAttemptAt)) &&
    (view.lastError.isNull || view.isPending && view.isTried && isTimestamp view.nextRetryAt)

/-- The condition on the process of a query. -/
def processAgrees : Bool :=
  match view.queryProcess with
  | .dict process => view.isPending && view.isTried &&
      (timestampOf view.lastAttemptAt).any (isQueryProcess process)
  | _ => true

/-- The conditions on the resolution. -/
def resolutionAgrees : Bool :=
  if view.isPending then
    view.resolvedAt.isNull && view.resolution.isNull && view.schedulerProvider.isNull &&
      view.schedulerJobId.isNull && (view.isTried || view.resultSha256.isNull)
  else
    view.isStarted && isTimestamp view.resolvedAt &&
      notBefore (timestampOf view.resolvedAt) (timestampOf view.dispatchStartedAt) &&
      notBefore (timestampOf view.resolvedAt) (timestampOf view.lastAttemptAt) &&
      !view.resultSha256.isNull && !view.resolution.isNull && view.lastError.isNull &&
      view.nextRetryAt.isNull && view.queryProcess.isNull &&
      view.schedulerProvider.isNull == view.schedulerJobId.isNull &&
      (!view.resolution.isStr "execution_query" || view.isTried)

/-- The conditions of the reader. -/
def isValid (job : RoutedJob φ) : Bool :=
  view.isBound job && view.isTyped &&
    notBefore (timestampOf view.dispatchStartedAt) (timestampOf view.createdAt) &&
    view.attemptAgrees && view.retryAgrees && view.processAgrees && view.resolutionAgrees

end IntentView

/-- `_durable_jarvis_execution_recovery`. -/
def durableJarvisExecutionRecovery (job : RoutedJob φ) (task : RecoveryTask φ) :
    Except RecoveryError (Option (Fields (Number φ))) :=
  match task.metadata.get intentKey with
  | .null => .ok none
  | .dict intent =>
    if Fields.hasExactly intent intentFields && (viewOf intent).isValid job then .ok (some intent)
    else .error (.relay s!"JARVIS execution recovery intent is invalid for {task.taskId}")
  | _ => .error (.relay s!"JARVIS execution recovery intent is invalid for {task.taskId}")

end Reader

end ClioQueue.Recovery
