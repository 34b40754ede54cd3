/-
# The rules of the monitor

`MonitorRule`, what a rule finds in the events of its job, and what it does there: the parts of
`evaluate_monitor_rules` in `clio_relay/relay_ops.py` that touch no file.  Python's `re`, and its
reading of texts as numbers, come in as the class `Text`.
-/

import ClioQueue.JobListings

namespace ClioQueue
namespace Monitor

/-- `re.Match`: the whole match, the groups from 1 on, and `groupdict()`. -/
structure Match where
  text : String
  groups : List (Option String)
  named : List (String × Option String)
  deriving DecidableEq

/-- What of Python's standard library a rule is read with. -/
class Text where
  /-- `re.compile` accepts the pattern. -/
  compiles : String → Bool
  /-- `re.compile(pattern).finditer(text)`, of a pattern and a text. -/
  finditer : String → String → List Match
  /-- `str.strip`. -/
  strip : String → String
  /-- `str.isdigit`. -/
  isdigit : String → Bool
  /-- `int` of a text; `none` is a `ValueError`. -/
  int : String → Option Nat
  /-- `float` of a number or a text; `none` is a `ValueError` or an `OverflowError`. -/
  float : Json → Option Json
  /-- A float is greater than 0. -/
  positive : Json → Bool

/-- `MonitorRuleAction`. -/
inductive MonitorRuleAction where
  | emitEvent
  | submitAgent
  | recordProgress
  deriving DecidableEq

/-- `MonitorRule`, without the times and the metadata that no evaluation reads. -/
structure MonitorRule where
  ruleId : DurableRecordId
  jobId : DurableRecordId
  pattern : String
  action : MonitorRuleAction
  eventTypes : List String
  nextSeq : Nat
  nextSeq_pos : 1 ≤ nextSeq
  enabled : Bool
  triggeredAt : Option Time
  actionPayload : Dict
  deriving DecidableEq

/-- `RelayJob` with its `RemoteAgentTaskSpec`, as a rule submits it. -/
structure AgentJob where
  cluster : String
  promptPath : String
  mcpConfigPath : Option String
  model : Option String
  workdir : Option String
  timeoutSeconds : Option Nat
  context : Dict
  idempotencyKey : String
  deriving DecidableEq

/-! ### What a rule finds -/

section

variable [Text]

/-- `_event_search_text`. -/
def eventSearchText (event : RelayEvent) : List String :=
  match event.payload.get "text" with
  | .str text =>
    if Text.strip text = Text.strip event.message then [event.message] else [event.message, text]
  | _ => [event.message]

/-- `_event_matches`. -/
def eventMatches (event : RelayEvent) (pattern : String) : List Match :=
  (eventSearchText event).flatMap (Text.finditer pattern)

/-- `not rule.event_types or event.event_type in rule.event_types`. -/
def MonitorRule.listens (rule : MonitorRule) (event : RelayEvent) : Bool :=
  rule.eventTypes.isEmpty || rule.eventTypes.contains event.eventType

/-- The matches of a rule in one event. -/
def MonitorRule.hits (rule : MonitorRule) (event : RelayEvent) : List (RelayEvent × Match) :=
  if rule.listens event then (eventMatches event rule.pattern).map fun found => (event, found)
  else []

/-- The matches of a rule in events, in order. -/
def MonitorRule.matchesIn (rule : MonitorRule) (events : List RelayEvent) :
    List (RelayEvent × Match) := events.flatMap rule.hits

/-- The matches that one evaluation of a rule acts on: all of them for `record_progress`, else the
first one. -/
def MonitorRule.due (rule : MonitorRule) (events : List RelayEvent) : List (RelayEvent × Match) :=
  if rule.action = .recordProgress then rule.matchesIn events else (rule.matchesIn events).take 1

/-! ### The payload of an action -/

/-- `_required_payload_str`. -/
def requiredPayloadStr (rule : MonitorRule) (key : String) : Except RelayError String :=
  match rule.actionPayload.get key with
  | .str value =>
    if value = "" then
      .error (.configuration s!"monitor action requires string payload field: {key}")
    else .ok value
  | _ => .error (.configuration s!"monitor action requires string payload field: {key}")

/-- `_optional_payload_str`. -/
def optionalPayloadStr (rule : MonitorRule) (key : String) : Except RelayError (Option String) :=
  match rule.actionPayload.get key with
  | .null => .ok none
  | .str value => .ok (some value)
  | _ => .error (.configuration s!"monitor action payload field must be a string: {key}")

/-- The check of `timeout_seconds`; a truth value is an integer, and `RemoteAgentTaskSpec` takes
positive ones only. -/
def timeoutSeconds (rule : MonitorRule) : Except RelayError (Option Nat) :=
  match rule.actionPayload.get "timeout_seconds" with
  | .null => .ok none
  | .num value "" =>
    if 0 < value then .ok (some value.toNat)
    else .error (.value "timeout_seconds: Input should be greater than 0")
  | .bool value =>
    if value then .ok (some 1)
    else .error (.value "timeout_seconds: Input should be greater than 0")
  | _ => .error (.configuration "monitor action timeout_seconds must be an integer")

/-- `match.groupdict()`. -/
def groupdict (found : Match) : Json :=
  .obj (found.named.map fun group => (group.1, (group.2.map Json.str).getD .null))

/-- `_monitor_agent_context`. -/
def monitorAgentContext (rule : MonitorRule) (event : RelayEvent) (found : Match) : Dict :=
  [("monitor_rule_id", .str rule.ruleId.value), ("source_job_id", .str event.jobId.value),
    ("source_event_seq", .num event.seq ""), ("source_event_type", .str event.eventType),
    ("source_event_message", .str event.message), ("source_event_payload", .obj event.payload),
    ("match_text", .str found.text), ("match_groups", groupdict found)]

/-- The job that a `submit_agent` rule submits. -/
def agentJob (rule : MonitorRule) (event : RelayEvent) (found : Match) :
    Except RelayError AgentJob := do
  let cluster ← requiredPayloadStr rule "cluster"
  let promptPath ← requiredPayloadStr rule "prompt_path"
  let mcpConfigPath ← optionalPayloadStr rule "mcp_config_path"
  let workdir ← optionalPayloadStr rule "workdir"
  let timeoutSeconds ← timeoutSeconds rule
  let model ← optionalPayloadStr rule "model"
  .ok { cluster, promptPath, mcpConfigPath, model, workdir, timeoutSeconds,
        context := monitorAgentContext rule event found
        idempotencyKey := s!"monitor:{rule.ruleId}:{event.seq}" }

/-- `_progress_label`. -/
def progressLabel (rule : MonitorRule) : Except RelayError String :=
  if rule.actionPayload.has "label" then
    match rule.actionPayload.get "label" with
    | .str value =>
      if value = "" then .error (.configuration "monitor progress label must be a non-empty string")
      else .ok value
    | _ => .error (.configuration "monitor progress label must be a non-empty string")
  else .ok "progress"

/-- `_progress_group_text`. -/
def progressGroupText (found : Match) (groupName : String) : Except RelayError (Option String) :=
  if Text.isdigit groupName then
    match Text.int groupName with
    | none => .error (.value "invalid literal for int() with base 10")
    | some 0 => .ok (some found.text)
    | some (index + 1) =>
      match found.groups[index]? with
      | some text => .ok text
      | none => .error (.configuration s!"monitor regex did not define group: {groupName}")
  else
    match found.named.lookup groupName with
    | some text => .ok text
    | none => .error (.configuration s!"monitor regex did not define group: {groupName}")

/-- `_progress_message`. -/
def progressMessageOf (rule : MonitorRule) (found : Match) : Except RelayError (Option String) := do
  match ← optionalPayloadStr rule "message" with
  | some static => .ok (some static)
  | none =>
    match ← optionalPayloadStr rule "message_group" with
    | none => .ok none
    | some groupName => progressGroupText found groupName

/-- `_coerce_progress_float`. -/
def coerceProgressFloat (value : Json) (key : String) : Except RelayError Json :=
  match value with
  | .num _ _ =>
    match Text.float value with
    | some number => .ok number
    | none => .error (.overflow "int too large to convert to float")
  | .str _ =>
    match Text.float value with
    | some number => .ok number
    | none => .error (.configuration s!"monitor progress {key} must be numeric")
  | _ => .error (.configuration s!"monitor progress {key} must be numeric")

/-- `_progress_float`. -/
def progressFloat (rule : MonitorRule) (key : String) (found : Match) : Except RelayError Json :=
  match rule.actionPayload.get key with
  | .null => do
    match ← optionalPayloadStr rule s!"{key}_group" with
    | none => .ok .null
    | some groupName =>
      match ← progressGroupText found groupName with
      | none => .ok .null
      | some text => coerceProgressFloat (.str text) key
  | value => coerceProgressFloat value key

/-- `external_progress_metadata("monitor_rule", …)`: none of the three keys is protected. -/
def monitorProgressMetadata (rule : MonitorRule) (event : RelayEvent) (found : Match) : Dict :=
  [("rule_id", .str rule.ruleId.value), ("event_type", .str event.eventType),
    ("match_groups", groupdict found), ("source", .str "monitor_rule")]

/-- The record that a `record_progress` rule appends, with a fresh id at a time.  `ProgressRecord`
takes a positive total only. -/
def progressRecord (rule : MonitorRule) (event : RelayEvent) (found : Match)
    (progressId : DurableRecordId) (now : Time) : Except RelayError ProgressRecord := do
  let label ← progressLabel rule
  let current ← progressFloat rule "current" found
  let total ← progressFloat rule "total" found
  let unit ← optionalPayloadStr rule "unit"
  let message ← progressMessageOf rule found
  if total = .null ∨ Text.positive total = true then
    .ok { progressId, jobId := rule.jobId, sequence := none, label, current, total, unit, message,
          sourceEventSeq := some event.seq, createdAt := now,
          metadata := monitorProgressMetadata rule event found }
  else .error (.value "total: Input should be greater than 0")

/-- What the first durable write of `_apply_monitor_rule_action` is. -/
inductive ActionWrite where
  | emit
  | submit (job : AgentJob)
  | record (progress : ProgressRecord)
  deriving DecidableEq

/-- The part of `_apply_monitor_rule_action` before its first durable write. -/
def actionWrite (rule : MonitorRule) (event : RelayEvent) (found : Match)
    (progressId : DurableRecordId) (now : Time) : Except RelayError ActionWrite :=
  match rule.action with
  | .emitEvent => .ok .emit
  | .submitAgent => do
    let job ← agentJob rule event found
    .ok (.submit job)
  | .recordProgress => do
    let progress ← progressRecord rule event found progressId now
    .ok (.record progress)

end

end Monitor
end ClioQueue
