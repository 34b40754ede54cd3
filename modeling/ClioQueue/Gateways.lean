/-
# Gateway sessions

`create_gateway_session` and `update_gateway_session` of
`clio_relay/queue_gateways.py`: a gateway session is written as an intent, its
canonical record, its backlinks and the removal of the intent.
-/

import ClioQueue.Transitions

namespace ClioQueue

open Durable Durable.Prog

section

variable [Platform] [Entropy]

/-- `write_gateway_session`. -/
def writeGatewaySession (session : GatewaySession) : Op Unit := do
  writeTransitionIntent (.gatewaySync session.sessionId)
  putWithin (Platform.gatewayFits session) (.gatewaySession session.sessionId) session
  syncGatewaySessionDerived session.sessionId
  unlink (.intent (.gatewaySync session.sessionId))

/-- What `create_gateway_session` does once the journal is replayed. -/
def createGatewaySessionUnlocked (session : GatewaySession) : Op GatewaySession := do
  let existing ← read (.gatewaySession session.sessionId)
  require existing.isNone (.conflict s!"gateway session already exists: {session.sessionId}")
  ofExcept (validateNewOwnerSessionMetadata session.metadata)
  assertOwnerSessionIntakeOpen session.metadata true
  let _sequence ← ensureGlobal .gatewaySessions session.sessionId
  writeGatewaySession session
  pure session

/-- `create_gateway_session`. -/
def createGatewaySession (session : GatewaySession) : Op GatewaySession := do
  requireIndexMigrationComplete
  recoverPendingTransitions
  createGatewaySessionUnlocked session

/-- `get_gateway_session`. -/
def getGatewaySession (sessionId : DurableRecordId) : Op GatewaySession := do
  let found ← read (.gatewaySession sessionId)
  match found with
  | none => raise (.notFound s!"gateway session not found: {sessionId}")
  | some session => do
    require (session.sessionId == sessionId)
      (.conflict s!"canonical gateway session identity mismatch: {sessionId}")
    pure session

/-- `_has_relay_managed_gateway_state`. -/
def hasRelayManagedGatewayState (gateway : Dict) : Bool :=
  (["runtime_spec", "jarvis_runtime_binding", "browser_attachment", "ownership_intents",
      "teardown_intent", "teardown", "detach"].any gateway.has) ||
    (gateway.get "transport").obj?.any fun transport =>
      ["browser_proxy", "desktop_connector", "remote_connector"].any (Dict.has transport)

/-- The arguments of `update_gateway_session`; a field that is `none` is not updated. -/
structure GatewayUpdate where
  state : Option GatewaySessionState := none
  metadata : Dict := []
  schedulerJobId : Option (Option String) := none
  gateway : Option Dict := none
  artifacts : Option (List String) := none
  details : Option Dict := none
  expectedUpdatedAt : Option Time := none
  allowOwnedRuntimeClose : Bool := false
  rejectRelayManagedFields : Bool := false
  deriving DecidableEq

/-- Whether `updates` names a field. -/
def GatewayUpdate.hasUpdates (update : GatewayUpdate) : Bool :=
  update.schedulerJobId.isSome || update.gateway.isSome || update.artifacts.isSome ||
    update.details.isSome

/-- The updated session. -/
def GatewayUpdate.apply (update : GatewayUpdate) (session : GatewaySession) (updatedAt : Time) :
    GatewaySession :=
  { session with
    state := update.state.getD session.state
    schedulerJobId := update.schedulerJobId.getD session.schedulerJobId
    gateway := update.gateway.getD session.gateway
    artifacts := update.artifacts.getD session.artifacts
    details := update.details.getD session.details
    metadata := session.metadata.update update.metadata
    updatedAt }

/-- Whether the session is an owned runtime. -/
def GatewaySession.isOwnedRuntime (session : GatewaySession) : Bool :=
  session.metadata.get "owner" == .str "clio-relay" &&
    (Dict.get session.gateway "runtime_spec").obj?.isSome

/-- The refusals of `update_gateway_session` on a session. -/
def GatewayUpdate.refusal (update : GatewayUpdate) (session : GatewaySession) : Option RelayError :=
  if update.rejectRelayManagedFields && update.gateway.isSome &&
      hasRelayManagedGatewayState session.gateway then
    some (.conflict
      s!"generic gateway updates cannot replace relay-managed runtime state: {session.sessionId}")
  else if update.state == some .closed && session.state != .closed && session.isOwnedRuntime &&
      !update.allowOwnedRuntimeClose then
    some (.conflict "owned runtime gateway sessions must be closed with stop-runtime so connectors are proven stopped first")
  else if session.state == .closed && !update.state.all (· == .closed) then
    some (.conflict s!"cannot reopen closed gateway session: {session.sessionId}")
  else if session.state == .closed && update.hasUpdates && !update.allowOwnedRuntimeClose then
    some (.conflict s!"cannot update closed gateway session: {session.sessionId}")
  else if Dict.get session.gateway "teardown_intent" != .null && update.gateway.any fun gateway =>
      Dict.get gateway "teardown_intent" != Dict.get session.gateway "teardown_intent" then
    some (.conflict
      s!"a committed gateway teardown intent cannot be removed or changed: {session.sessionId}")
  else none

/-- What `update_gateway_session` does once the journal is replayed. -/
def updateGatewaySessionUnlocked (sessionId : DurableRecordId) (update : GatewayUpdate) :
    Op GatewaySession := do
  let session ← getGatewaySession sessionId
  require (update.expectedUpdatedAt.all (· == session.updatedAt))
    (.conflict s!"gateway session changed during a runtime transition: {sessionId}")
  let _sequence ← ensureGlobal .gatewaySessions session.sessionId
  match update.refusal session with
  | some error => raise error
  | none => do
    let updatedAt ← utcNow
    let updated := update.apply session updatedAt
    writeGatewaySession updated
    pure updated

/-- `update_gateway_session`. -/
def updateGatewaySession (sessionId : DurableRecordId) (update : GatewayUpdate) :
    Op GatewaySession := do
  requireIndexMigrationComplete
  recoverPendingTransitions
  updateGatewaySessionUnlocked sessionId update

end

end ClioQueue
