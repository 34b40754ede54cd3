/-
# The progress bridge

`_McpProgressBridge` on native snapshots: the runner authenticates the progress notifications of
one MCP call and appends a signed line to the relay's sidecar for each event it has not seen yet.
A bridge whose producer began with the older compatibility form refuses a native snapshot
(`nativeMode`); that form and the final result are no part of the model.
-/

import ClioQueue.Jarvis.RunnerAcceptance

namespace ClioQueue.Jarvis

open Wire

variable {φ : Type}

/-- `hmac.new(key, text, sha256).hexdigest()`. -/
class RelayHmac where
  hexdigest : String → List Char → String

/-- What a bridge is made with. -/
structure BridgeConfig where
  relayToken : String
  expectedServerArtifactDigest : String
  observedServerArtifactDigest : String
  expectedPipelineId : String

/-- An event to append: the snapshot and the package it is the latest event of, the number of the
notification, and how many events of the package no notification showed. -/
structure NativeCandidate (φ : Type) where
  snapshot : ExecutionProgress φ
  package : PackageProgress φ
  event : ProgressEvent φ
  transportSequence : Nat
  skippedEventCount : Nat

/-- The state of a bridge, and the lines it has appended. -/
structure Bridge (φ : Type) where
  sidecarSequence : Nat
  boundExecutionId : Option String
  nativeMode : Option Bool
  nativeTransportSequence : Nat
  nativeExecution : Option (ExecutionState × Bool)
  nativeScriptedActivationObserved : Bool
  nativePackageNames : List (String × String)
  nativePackageSequences : List (String × Nat)
  nativePackageEventCounts : List (String × Nat)
  nativeLatestCandidates : List (String × NativeCandidate φ)
  sidecar : List (List Char)

/-- A bridge that has seen nothing. -/
def Bridge.fresh : Bridge φ where
  sidecarSequence := 0
  boundExecutionId := none
  nativeMode := none
  nativeTransportSequence := 0
  nativeExecution := none
  nativeScriptedActivationObserved := false
  nativePackageNames := []
  nativePackageSequences := []
  nativePackageEventCounts := []
  nativeLatestCandidates := []
  sidecar := []

/-- `PROGRESS_SIDECAR_RECORD_SCHEMA`. -/
def sidecarRecordSchema : String := "clio-relay.progress-sidecar-record.v1"

/-- `MCP_JARVIS_NATIVE_PROGRESS_BRIDGE_SCHEMA`. -/
def nativeBridgeSchema : String := "clio-relay.mcp-jarvis-progress-bridge.v1"

/-- `MCP_PACKAGE_PROGRESS_MAX_NOTIFICATION_BYTES`. -/
def maxNotificationBytes : Nat := 64 * 1024

namespace Bridge

open Runner

/-! ### Lines -/

section Lines

variable [PyFloat φ] [RelayHmac]

/-- What is signed of a record. -/
def signedRecord (sequence : Nat) (record : Fields (Number φ)) : Fields (Number φ) :=
  [("schema_version", .str sidecarRecordSchema), ("sequence", .num (.int sequence)),
    ("progress", .dict record)]

/-- The record with its signature. -/
def sidecarRecord (config : BridgeConfig) (sequence : Nat) (record : Fields (Number φ)) :
    Fields (Number φ) :=
  signedRecord sequence record ++ [("progress_hmac",
    .str (RelayHmac.hexdigest config.relayToken (Value.dumps (.dict (signedRecord sequence record)))))]

/-- The line of a record. -/
def payload (config : BridgeConfig) (sequence : Nat) (record : Fields (Number φ)) : List Char :=
  Value.dumps (.dict (sidecarRecord config sequence record)) ++ ['\n']

/-- `_append_progress_payload`. -/
def appendProgressPayload (config : BridgeConfig) (record : Fields (Number φ)) (bridge : Bridge φ) :
    Except RunnerFailure (Bridge φ) := do
  let line := payload config (bridge.sidecarSequence + 1) record
  Runner.ensure (byteLength line ≤ maxNotificationBytes)
    "bridged MCP package progress exceeded its byte limit"
  pure { bridge with sidecar := bridge.sidecar ++ [line],
                     sidecarSequence := bridge.sidecarSequence + 1 }

/-- The provenance of a native event. -/
def nativeProvenance (config : BridgeConfig) (candidate : NativeCandidate φ)
    (executionValidated : Bool) : Fields (Number φ) :=
  [("schema_version", .str nativeBridgeSchema),
    ("execution_id", .str candidate.snapshot.executionId),
    ("pipeline_id", .str candidate.snapshot.pipelineId),
    ("execution_state", .str candidate.snapshot.executionState.text),
    ("terminal", .bool candidate.snapshot.terminal),
    ("transport_sequence", .num (.int candidate.transportSequence)),
    ("package_name", .str candidate.package.packageName),
    ("package_id", .str candidate.package.packageId),
    ("event_count", .num (.int candidate.package.eventCount)),
    ("event_schema_version", .str eventSchema),
    ("event_sequence", .num (.int candidate.event.sequence)),
    ("event_state", .str candidate.event.state.text),
    ("observed_at_epoch", .num candidate.event.observedAtEpoch),
    ("determinate", .bool candidate.event.determinate),
    ("skipped_event_count", .num (.int candidate.skippedEventCount)),
    ("expected_server_artifact_digest", .str config.expectedServerArtifactDigest),
    ("observed_server_artifact_digest", .str config.observedServerArtifactDigest),
    ("execution_validated", .bool executionValidated)]

/-- A field that is repeated if the event gives it. -/
def givenField (event : ProgressEvent φ) (name : String) (value : Value (Number φ)) :
    Fields (Number φ) :=
  if name ∈ event.given then [(name, value)] else []

/-- The record of a native event. -/
def nativeRecord (config : BridgeConfig) (candidate : NativeCandidate φ)
    (executionValidated : Bool) : Fields (Number φ) :=
  [("label", .str candidate.event.label),
    ("message", .str (candidate.event.message.getD candidate.event.label)),
    ("metadata", .dict (assign candidate.event.metadata "mcp_native_progress_bridge"
      (.dict (nativeProvenance config candidate executionValidated))))] ++
    givenField candidate.event "current" (optionalNumber candidate.event.current) ++
    givenField candidate.event "total" (optionalNumber candidate.event.total) ++
    givenField candidate.event "unit" (optionalText candidate.event.unit)

/-- `_append_native_record`. -/
def appendNativeRecord (config : BridgeConfig) (candidate : NativeCandidate φ)
    (executionValidated : Bool) (bridge : Bridge φ) : Except RunnerFailure (Bridge φ) :=
  appendProgressPayload config (nativeRecord config candidate executionValidated) bridge

end Lines

/-! ### Native snapshots -/

section Native

/-- `_observe_native_execution_lifecycle`. -/
def observeNativeExecutionLifecycle (snapshot : ExecutionProgress φ) (bridge : Bridge φ) :
    Except RunnerFailure (Bridge φ) :=
  match bridge.nativeExecution with
  | none =>
    .ok { bridge with nativeExecution := some (snapshot.executionState, snapshot.terminal) }
  | some (previousState, previousTerminal) =>
    if snapshot.executionState = previousState then do
      Runner.ensure (snapshot.terminal = previousTerminal)
        "MCP native progress terminal flag changed in place"
      pure bridge
    else do
      Runner.ensure (snapshot.executionState ∈ reachableStates previousState)
        "MCP native progress execution state regressed"
      Runner.ensure (!previousTerminal || previousState = .scripted)
        "MCP native terminal execution changed state"
      pure
        { bridge with
          nativeScriptedActivationObserved := bridge.nativeScriptedActivationObserved ||
            (previousState = .scripted && snapshot.executionState ≠ .failed)
          nativeExecution := some (snapshot.executionState, snapshot.terminal) }

variable [PyFloat φ] [RelayHmac]

/-- A package's new latest event, if it has one. -/
def observeNativeEvent (config : BridgeConfig) (snapshot : ExecutionProgress φ)
    (package : PackageProgress φ) (priorCount : Nat) (latest : ProgressEvent φ) (bridge : Bridge φ) :
    Except RunnerFailure (Bridge φ) := do
  let candidate : NativeCandidate φ :=
    { snapshot := snapshot, package := package, event := latest,
      transportSequence := bridge.nativeTransportSequence,
      skippedEventCount := package.eventCount - priorCount - 1 }
  let recorded : Bridge φ :=
    { bridge with
      nativePackageSequences := assign bridge.nativePackageSequences package.packageId latest.sequence
      nativeLatestCandidates := assign bridge.nativeLatestCandidates package.packageId candidate }
  match bridge.nativePackageSequences.lookup package.packageId with
  | none => appendNativeRecord config candidate false recorded
  | some priorSequence =>
    Runner.ensure (priorSequence ≤ latest.sequence) "MCP native package progress sequence regressed"
    if latest.sequence = priorSequence then do
      Runner.ensure (package.eventCount = priorCount)
        "MCP native package progress count changed without a new event"
      pure bridge
    else do
      Runner.ensure (package.eventCount ≠ priorCount)
        "MCP native package progress event changed without increasing its count"
      appendNativeRecord config candidate false recorded

/-- `_observe_native_package`. -/
def observeNativePackage (config : BridgeConfig) (snapshot : ExecutionProgress φ)
    (package : PackageProgress φ) (bridge : Bridge φ) : Except RunnerFailure (Bridge φ) := do
  Runner.ensure ((bridge.nativePackageNames.lookup package.packageId).all (· = package.packageName))
    "MCP native package progress name changed"
  let priorCount := (bridge.nativePackageEventCounts.lookup package.packageId).getD 0
  Runner.ensure (priorCount ≤ package.eventCount) "MCP native progress event count regressed"
  let counted : Bridge φ :=
    { bridge with
      nativePackageNames := assign bridge.nativePackageNames package.packageId package.packageName
      nativePackageEventCounts :=
        assign bridge.nativePackageEventCounts package.packageId package.eventCount }
  match package.latest with
  | none => pure counted
  | some latest => observeNativeEvent config snapshot package priorCount latest counted

/-- `self._observe_native_package`, for each package. -/
def observeNativePackages (config : BridgeConfig) (snapshot : ExecutionProgress φ) :
    List (PackageProgress φ) → Bridge φ → Except RunnerFailure (Bridge φ)
  | [], bridge => .ok bridge
  | package :: packages, bridge => do
    let observed ← observeNativePackage config snapshot package bridge
    observeNativePackages config snapshot packages observed

/-- The number of a notification is the next one. -/
def isNextTransport (bridge : Bridge φ) (progress : Value (Number φ)) :
    Except RunnerFailure Bool := do
  let transportValue ← finiteProgressNumber progress
  pure (transportValue.any fun x => PyFloat.value x = bridge.nativeTransportSequence + 1)

/-- `_observe_native_progress`. -/
def observeNativeProgress (config : BridgeConfig) (snapshotValue progress : Value (Number φ))
    (bridge : Bridge φ) : Except RunnerFailure (Bridge φ) := do
  Runner.ensure (bridge.nativeMode ≠ some false)
    "MCP progress producer changed from compatibility to native"
  let isNext ← isNextTransport bridge progress
  Runner.ensure isNext "MCP native progress transport sequence was not monotonic"
  let snapshot ← validatedNativeProgressSnapshot snapshotValue
  Runner.ensure (snapshot.pipelineId = config.expectedPipelineId)
    "MCP native progress pipeline id did not match the request"
  Runner.ensure (bridge.boundExecutionId.all (· = snapshot.executionId))
    "MCP native progress execution id changed"
  let observed ← observeNativeExecutionLifecycle snapshot
    { bridge with nativeMode := some true,
                  nativeTransportSequence := bridge.nativeTransportSequence + 1,
                  boundExecutionId := some snapshot.executionId }
  Runner.ensure
    (observed.nativePackageNames.all fun entry => (packageIds snapshot.packages).contains entry.1)
    "MCP native progress dropped a package identity"
  observeNativePackages config snapshot snapshot.packages observed

end Native

end Bridge

end ClioQueue.Jarvis
