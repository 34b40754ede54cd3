/-
# The native documents of a JARVIS execution

What JARVIS-CD reports of one execution: the handle that names it, the record of its
lifecycle, and the progress of its packages.  The runner reads them from the result of an MCP
call and the worker from the runtime metadata; both read them into the types of this file,
each with checks of its own.  `isNativeText`, `isNativeIdentity` and `isNativeTimestamp` are the
conditions on one string that the two have in common.
-/

import ClioQueue.Wire.Values

namespace ClioQueue.Jarvis

open Wire

/-! ### The vocabulary -/

/-- `mode`. -/
inductive ExecutionMode where
  | direct | scheduler
deriving DecidableEq, Repr

/-- The text of a mode. -/
def ExecutionMode.text : ExecutionMode → String
  | .direct => "direct"
  | .scheduler => "scheduler"

/-- The modes. -/
def executionModes : List ExecutionMode := [.direct, .scheduler]

/-- `_JARVIS_EXECUTION_STATES`. -/
inductive ExecutionState where
  | preparing | scripted | submitting | submitted | running | completed | failed | canceled
  | unknown
deriving DecidableEq, Repr

/-- The text of a state. -/
def ExecutionState.text : ExecutionState → String
  | .preparing => "preparing"
  | .scripted => "scripted"
  | .submitting => "submitting"
  | .submitted => "submitted"
  | .running => "running"
  | .completed => "completed"
  | .failed => "failed"
  | .canceled => "canceled"
  | .unknown => "unknown"

/-- `_JARVIS_EXECUTION_STATES`, listed. -/
def executionStates : List ExecutionState :=
  [.preparing, .scripted, .submitting, .submitted, .running, .completed, .failed, .canceled,
    .unknown]

/-- `_JARVIS_TERMINAL_STATES`. -/
def terminalStates : List ExecutionState := [.scripted, .completed, .failed, .canceled]

/-- The states that are terminal whatever the record says. -/
def endedStates : List ExecutionState := [.completed, .failed, .canceled]

/-- `_JARVIS_REACHABLE_STATES`, which the worker and the bridge each hold a copy of. -/
def reachableStates : ExecutionState → List ExecutionState
  | .preparing =>
    [.scripted, .submitting, .submitted, .running, .completed, .failed, .canceled, .unknown]
  | .scripted => [.running, .completed, .failed, .canceled, .unknown]
  | .submitting => [.submitted, .running, .completed, .failed, .canceled, .unknown]
  | .submitted => [.running, .completed, .failed, .canceled, .unknown]
  | .running => [.completed, .failed, .canceled, .unknown]
  | .completed => []
  | .failed => []
  | .canceled => []
  | .unknown => [.submitted, .running, .completed, .failed, .canceled]

/-- `_JARVIS_PROGRESS_STATES`. -/
inductive ProgressState where
  | pending | starting | running | ready | completed | failed | canceled
deriving DecidableEq, Repr

/-- The text of a progress state. -/
def ProgressState.text : ProgressState → String
  | .pending => "pending"
  | .starting => "starting"
  | .running => "running"
  | .ready => "ready"
  | .completed => "completed"
  | .failed => "failed"
  | .canceled => "canceled"

/-- `_JARVIS_PROGRESS_STATES`, listed. -/
def progressStates : List ProgressState :=
  [.pending, .starting, .running, .ready, .completed, .failed, .canceled]

/-- The member of an enumeration with a text. -/
def withText {α : Type} (text : α → String) (members : List α) (s : String) : Option α :=
  members.find? fun a => text a == s

/-! ### The documents -/

/-- `jarvis.execution.handle.v1`. -/
structure ExecutionHandle where
  executionId : String
  pipelineId : String
  mode : ExecutionMode
  schedulerProvider : Option String
  schedulerNativeId : Option String
  cluster : Option String
deriving DecidableEq, Repr

/-- `jarvis.execution.record.v1`. -/
structure ExecutionRecord (φ : Type) where
  executionId : String
  pipelineId : String
  pipelineName : String
  mode : ExecutionMode
  schedulerProvider : Option String
  schedulerNativeId : Option String
  cluster : Option String
  state : ExecutionState
  submitted : Bool
  terminal : Bool
  createdAt : String
  updatedAt : String
  returnCode : Option Int
  error : Option String
  metadata : Fields (Number φ)

/-- The handle that a record repeats. -/
def ExecutionRecord.handle {φ : Type} (record : ExecutionRecord φ) : ExecutionHandle where
  executionId := record.executionId
  pipelineId := record.pipelineId
  mode := record.mode
  schedulerProvider := record.schedulerProvider
  schedulerNativeId := record.schedulerNativeId
  cluster := record.cluster

/-- `jarvis.progress.v1`, one event of a package.  `given` are the optional fields that its
document has, be they `None` or not. -/
structure ProgressEvent (φ : Type) where
  packageName : String
  packageId : String
  executionId : String
  label : String
  state : ProgressState
  current : Option (Number φ)
  total : Option (Number φ)
  unit : Option String
  message : Option String
  sequence : Nat
  observedAtEpoch : Number φ
  determinate : Bool
  metadata : Fields (Number φ)
  given : List String

/-- The progress of one package: how many events it had, and the latest. -/
structure PackageProgress (φ : Type) where
  packageId : String
  packageName : String
  eventCount : Nat
  latest : Option (ProgressEvent φ)

/-- `jarvis.execution.progress.v1`. -/
structure ExecutionProgress (φ : Type) where
  executionId : String
  pipelineId : String
  executionState : ExecutionState
  terminal : Bool
  packages : List (PackageProgress φ)

/-- The three documents of one execution. -/
structure NativeDocuments (φ : Type) where
  executionHandle : ExecutionHandle
  executionRecord : ExecutionRecord φ
  progress : ExecutionProgress φ

/-! ### Schemas and fields -/

/-- `JARVIS_EXECUTION_HANDLE_SCHEMA`. -/
def handleSchema : String := "jarvis.execution.handle.v1"

/-- `JARVIS_EXECUTION_RECORD_SCHEMA`. -/
def recordSchema : String := "jarvis.execution.record.v1"

/-- `JARVIS_EXECUTION_PROGRESS_SCHEMA`. -/
def progressSchema : String := "jarvis.execution.progress.v1"

/-- `JARVIS_PROGRESS_EVENT_SCHEMA`. -/
def eventSchema : String := "jarvis.progress.v1"

/-- `JARVIS_SCHEDULER_SUBMISSION_SCHEMA`. -/
def submissionSchema : String := "jarvis.scheduler.submission.v1"

/-- The entries that hold the documents. -/
def documentKeys : List String := ["execution_handle", "execution_record", "progress"]

/-- The fields of a handle. -/
def handleFields : List String :=
  ["schema_version", "execution_id", "pipeline_id", "mode", "scheduler_provider",
    "scheduler_native_id", "cluster"]

/-- The fields of a record. -/
def recordFields : List String :=
  ["schema_version", "execution_id", "pipeline_id", "pipeline_name", "mode",
    "scheduler_provider", "scheduler_native_id", "cluster", "state", "submitted", "terminal",
    "created_at", "updated_at", "return_code", "error", "metadata"]

/-- The fields of a progress snapshot. -/
def progressFields : List String :=
  ["schema_version", "execution_id", "pipeline_id", "execution_state", "terminal", "packages"]

/-- The fields of a package's progress. -/
def packageFields : List String := ["package_id", "package_name", "event_count", "latest"]

/-- The fields an event has to have. -/
def eventRequired : List String :=
  ["schema_version", "package_name", "package_id", "execution_id", "label", "state", "sequence",
    "observed_at_epoch", "determinate", "metadata"]

/-- The fields an event may have. -/
def eventOptional : List String := ["current", "total", "unit", "message"]

/-- The optional fields of an event that a document has. -/
def givenFields {ν : Type} (d : Fields ν) : List String := eventOptional.filter fun name => d.has name

/-- The paths that a submission may name. -/
def submissionPaths : List String :=
  ["script_path", "hostfile_path", "pipeline_snapshot_path", "pipeline_input_path",
    "execution_root_path", "output_path", "error_path"]

/-! ### Strings -/

/-- Not empty, and within a number of bytes. -/
def isBounded (maximum : Nat) (s : String) : Bool := s ≠ "" && s.utf8ByteSize ≤ maximum

/-- A control character that is not allowed. -/
def isControl (allowNewlines : Bool) (c : Char) : Bool :=
  (c.toNat < 32 && !(allowNewlines && (c = '\n' || c = '\r' || c = '\t'))) || c.toNat = 127

/-- Some character is a control that is not allowed. -/
def hasControls (allowNewlines : Bool) (s : String) : Bool := s.toList.any (isControl allowNewlines)

/-- A bounded nonempty string without control characters. -/
def isNativeText (maximum : Nat) (allowNewlines : Bool) (s : String) : Bool :=
  isBounded maximum s && !hasControls allowNewlines s

/-- `_WINDOWS_RESERVED_COMPONENTS`. -/
def windowsReservedComponents : List String :=
  ["CON", "PRN", "AUX", "NUL", "CLOCK$", "COM1", "COM2", "COM3", "COM4", "COM5", "COM6", "COM7",
    "COM8", "COM9", "LPT1", "LPT2", "LPT3", "LPT4", "LPT5", "LPT6", "LPT7", "LPT8", "LPT9"]

/-- An ASCII letter or digit, or one of `._-`. -/
def isPortable (c : Char) : Bool := c.isAlphanum || c = '.' || c = '_' || c = '-'

/-- A portable identity.  The first character and the stem are compared as ASCII: where they
are not, the last condition refuses the string whatever they are. -/
def isPortableIdentity (s : String) : Bool :=
  s.toList.head?.any Char.isAlphanum && s.toList.getLast? ≠ some '.' &&
    !windowsReservedComponents.contains
      (String.ofList ((s.toList.takeWhile fun c => c ≠ '.').map Char.toUpper)) &&
    s.toList.all isPortable

/-- A bounded portable identity. -/
def isNativeIdentity (s : String) : Bool := isNativeText 128 false s && isPortableIdentity s

/-- A SLURM job number. -/
def isSlurmIdentity (s : String) : Bool := s.length ≤ 64 && s ≠ "" && s.toList.all Char.isDigit

/-- A SLURM cluster name. -/
def isSlurmCluster (s : String) : Bool := s.length ≤ 255 && s.toList.all isPortable

/-- `value.replace("Z", "+00:00")`. -/
def replaceZ (s : String) : String :=
  String.ofList (s.toList.flatMap fun c => if c = 'Z' then "+00:00".toList else [c])

/-- What `datetime.fromisoformat` reads: the time on the wall, in microseconds, and the offset
of its timezone, which a naive time has not. -/
structure Datetime where
  wall : Int
  offset : Option Int
deriving DecidableEq, Repr

/-- `datetime.fromisoformat`. -/
class IsoFormat where
  fromisoformat : String → Option Datetime

variable [IsoFormat]

/-- The instant of a time with a timezone. -/
def instantOf (s : String) : Option Int :=
  (IsoFormat.fromisoformat (replaceZ s)).bind fun time => time.offset.map (time.wall - ·)

/-- A time with a timezone. -/
def isNativeTimestamp (s : String) : Bool := isNativeText 64 false s && (instantOf s).isSome

end ClioQueue.Jarvis
