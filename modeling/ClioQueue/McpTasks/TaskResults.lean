/-
# The results of MCP tasks

What of a result and of an answer the task runtime works on: the follow-up question to an agent
(`mcp_agent_input_guard.py`), the status of a task (`mcp_task_projection.py`), and the wire document
of a relay result (`mcp_task_runtime.py: _call_tool_result_document`, with
`mcp_server.py: _serialize_tool_result` and `mcp_result_verification.py: _mcp_tool_result_failed`).
-/

import ClioQueue.McpTasks.TaskStore

namespace ClioQueue.McpTasks

open Durable Wire

variable {φ : Type}

/-- An answer to an elicitation. -/
structure ElicitResult (φ : Type) where
  action : String
  content : Option (Fields (Number φ))

/-- The models of `mcp_types`: the JSON of a `CallToolResult` with one text, a structured content
and an error flag, unless it is too deep to be dumped; the JSON of an `ElicitRequest` for a form;
and what `ElicitResult` reads. -/
class McpTypes (φ : Type) where
  callToolResult : String → Fields (Number φ) → Bool → Option (Fields (Number φ))
  elicitRequest : String → Fields (Number φ) → Fields (Number φ)
  elicitResult : Value (Number φ) → Option (ElicitResult φ)

/-! ### The follow-up question -/

/-- `_AGENT_TASK_TOOL_NAMES`. -/
def agentTaskToolNames : List String := ["relay_submit_agent", "relay_submit_remote_agent"]

/-- `_AGENT_INPUT_KEY`. -/
def agentInputKey : String := "agent_message"

/-- `_AGENT_INPUT_REQUEST_STATE_SCHEMA`. -/
def agentInputRequestStateSchema : String := "clio-relay.agent-message-input.v1"

/-- `_MAX_AGENT_INPUT_MESSAGE_BYTES`. -/
def maxAgentInputMessageBytes : Nat := 128 * 1024

/-- `_agent_input_request_state`. -/
def agentInputRequestState (taskId : DurableRecordId) : String :=
  String.ofList ('\x7b' :: (asciiQuote "schema_version" ++ ':' ::
    (asciiQuote agentInputRequestStateSchema ++ ',' ::
      (asciiQuote "task_id" ++ ':' :: (asciiQuote taskId.value ++ ['\x7d'])))))

/-- The context of a tool call: its answers, each an `ElicitResult` or one that is none, and its
request state. -/
structure InputContext (φ : Type) where
  inputResponses : Option (List (String × Option (ElicitResult φ)))
  requestState : Option String

/-- What the guard ends with. -/
inductive GuardOutcome (φ : Type) where
  | inputRequired (requests : List (String × Fields (Number φ))) (requestState : String)
  | response (result : ElicitResult φ)

/-- The schema of the follow-up message. -/
def agentMessageSchema : Fields (Number φ) :=
  [("type", .str "object"),
    ("properties", .dict
      [("message", .dict
        [("type", .str "string"), ("minLength", .num (.int 1)),
          ("maxLength", .num (.int 32768))])]),
    ("required", .list [.str "message"]), ("additionalProperties", .bool false)]

/-- An accepted answer has a message. -/
def requireMessage (response : ElicitResult φ) : Except TaskError Unit := do
  match response.content with
  | none => .error (.value "accepted post-admission agent input omitted its content")
  | some content =>
    match content.get "message" with
    | .str message => do
      ensure (!message.isEmpty) (.value "accepted post-admission agent input omitted its message")
      ensure (byteLength message.toList ≤ maxAgentInputMessageBytes)
        (.value "post-admission agent input message exceeds its byte limit")
    | _ => .error (.value "accepted post-admission agent input omitted its message")

/-- An answer that was accepted has a message; another one needs none. -/
def requireAnswer (response : ElicitResult φ) : Except TaskError Unit :=
  if response.action = "accept" then requireMessage response else .ok ()

/-- `_post_admission_agent_input_guard`. -/
def postAdmissionAgentInputGuard [McpTypes φ] (context : InputContext φ)
    (taskId : DurableRecordId) : Except TaskError (GuardOutcome φ) :=
  match context.inputResponses with
  | none =>
    .ok (.inputRequired [(agentInputKey,
        McpTypes.elicitRequest "Send a follow-up message to the running remote agent."
          agentMessageSchema)]
      (agentInputRequestState taskId))
  | some responses => do
    ensure (context.requestState = some (agentInputRequestState taskId))
      (.value "post-admission agent input lost its durable request state")
    match responses.lookup agentInputKey with
    | none => .error (.value "post-admission agent input omitted its requested response")
    | some none => .error .validation
    | some (some response) => do
      requireAnswer response
      pure (.response response)

/-- `_agent_input_enabled`. -/
def agentInputEnabled (toolName : String) (arguments : Fields (Number φ)) : Bool :=
  agentTaskToolNames.contains toolName && (arguments.get "request_followup_message").isBool true

/-! ### The status of a task -/

/-- `McpTaskStatus`. -/
inductive McpTaskStatus where
  | working
  | inputRequired
  | completed
  | failed
  | cancelled
deriving DecidableEq, Repr

/-- `RELAY_STATE_MAP`. -/
def relayStateMap : List (List String × McpTaskStatus × Option Bool) :=
  [(["queued", "leased", "running"], .working, none),
    (["durable_input_round"], .inputRequired, none),
    (["succeeded"], .completed, some false),
    (["tool_failure"], .completed, some true),
    (["protocol_error"], .failed, none),
    (["canceled"], .cancelled, none)]

/-- `_relay_state_projection`. -/
def relayStateProjection (observation : String) : Except TaskError (McpTaskStatus × Option Bool) :=
  match relayStateMap.find? fun row => row.1.contains observation with
  | some row => .ok row.2
  | none => .error (.value s!"relay observation has no MCP task projection: {observation}")

/-- `TASK_POLL_INTERVAL_MS`. -/
def taskPollIntervalMs : Nat := 1000

/-- `TASK_TTL_MS`. -/
def taskTtlMs : Nat := 30 * 24 * 60 * 60 * 1000

/-- `GetTaskResult`. -/
structure GetTaskResult (φ : Type) where
  status : McpTaskStatus
  taskId : DurableRecordId
  createdAt : Int
  lastUpdatedAt : Int
  ttlMs : Nat := taskTtlMs
  pollIntervalMs : Nat := taskPollIntervalMs
  statusMessage : Option String := none
  error : Option (Fields (Number φ)) := none
  inputRequests : Option (List (String × Fields (Number φ))) := none
  result : Option (Fields (Number φ)) := none

/-! ### The wire document of a result -/

/-- `compact_keys`. -/
def compactKeys : List String :=
  ["service_runtime_bindings", "mcp_result_artifact", "cluster", "job_id", "route_revision",
    "state", "kind", "terminal", "remote", "last_error", "mcp_result"]

/-- `bulk_keys`. -/
def bulkKeys : List String := ["job", "logs", "artifacts"]

/-- The entries of a result at some keys, in the order of the keys. -/
def entriesAt (keys : List String) (result : Fields (Number φ)) : Fields (Number φ) :=
  keys.filterMap fun key => (result.lookup key).map (Prod.mk key)

/-- `DELIVERY_FAILURE_SCHEMA_VERSION`. -/
def deliveryFailureSchemaVersion : String := "clio-relay.mcp-result-delivery.v1"

/-- `is_delivery_refusal_failed`. -/
def isDeliveryRefusalFailed (document : Fields (Number φ)) : Bool :=
  match document.get "delivery" with
  | .dict delivery => (document.get "result_available").isBool false &&
      (Fields.get delivery "schema_version").isStr deliveryFailureSchemaVersion &&
      (Fields.get delivery "status").isStr "failed"
  | _ => false

/-- A return code other than zero. -/
def isFailingReturncode : Value (Number φ) → Bool
  | .num (.int n) => n ≠ 0
  | _ => false

/-- `isinstance(value, str)`. -/
def isText (value : Value (Number φ)) : Bool := value.str?.isSome

/-- `value in {"failed", "canceled"}`; a `list` or a `dict` is not looked for in a set. -/
def isUnsuccessfulState (value : Value (Number φ)) : Except TaskError Bool :=
  match value with
  | .list _ => .error (.other "unhashable type: 'list'")
  | .dict _ => .error (.other "unhashable type: 'dict'")
  | value => .ok (value.isStr JobState.failed.value || value.isStr JobState.canceled.value)

/-- The failure that the MCP result in a relay result shows. -/
def isFailedMcpResult (mcpResult : Fields (Number φ)) : Bool :=
  (mcpResult.get "timed_out").isBool true || isText (mcpResult.get "protocol_error") ||
    isFailingReturncode (mcpResult.get "returncode") ||
    (match mcpResult.get "protocol_result" with
      | .dict protocolResult => (Fields.get protocolResult "isError").isBool true
      | _ => false) || isDeliveryRefusalFailed mcpResult

/-- `_mcp_tool_result_failed`. -/
def mcpToolResultFailed (result : Fields (Number φ)) : Except TaskError Bool := do
  if isDeliveryRefusalFailed result then
    return true
  if (result.get "kind").isStr JobKind.mcpCall.value && (result.get "terminal").isBool true then
    if ← isUnsuccessfulState (result.get "state") then
      return true
  match result.get "mcp_result" with
  | .dict mcpResult => return isFailedMcpResult mcpResult
  | _ => return false

section

variable [PyFloat φ]

/-- `_serialize_tool_result`. -/
def serializeToolResult (result : Fields (Number φ)) : List Char :=
  if result.has "service_runtime_bindings" || result.has "mcp_result" then
    Value.spaced (.dict (entriesAt compactKeys result ++
      (result.filter fun entry => !compactKeys.contains entry.1 && !bulkKeys.contains entry.1) ++
      entriesAt bulkKeys result))
  else Value.spaced (Value.sortKeys (.dict result))

/-- The job of a result failed. -/
def isFailedJob (value : Value (Number φ)) : Bool :=
  match value with
  | .dict job => (Fields.get job "state").isStr JobState.failed.value
  | _ => false

/-- `_call_tool_result_document`. -/
def callToolResultDocument [McpTypes φ] (result : Fields (Number φ)) :
    Except TaskError (Fields (Number φ)) := do
  let text := String.ofList (serializeToolResult result)
  let isError ← if isFailedJob (result.get "job") then pure true else mcpToolResultFailed result
  match McpTypes.callToolResult text result isError with
  | some document => pure document
  | none => .error .validation

end

end ClioQueue.McpTasks
