/-
# The JARVIS route of a job

A job whose MCP call goes to the JARVIS server may be recovered: `trustedJarvisMcpRoute` says
whether it does, `mcpResultIdentityMatches` whether a stored MCP result is an answer to this very
call, and `jarvisDispatchRefusal` whether the answer is that JARVIS refused to run.
-/

import ClioQueue.Jarvis.WorkerDocuments

namespace ClioQueue.Recovery

open Wire Jarvis

variable {φ : Type}

/-- `==` of two values. -/
def sameValue [PyFloat φ] (a b : Value (Number φ)) : Bool := a.plain = b.plain

/-- A list of strings. -/
def textList (items : List String) : Value (Number φ) := .list (items.map .str)

/-- What the JARVIS route reads of an `McpCallSpec`. -/
structure CallSpec (φ : Type) where
  server : String
  serverArgs : List String
  envFrom : Fields (Number φ)
  expectedServerArtifactDigest : Option String
  expectedRegisteredContract : Option String
  expectedJarvisCdLockBinding : Option (Fields (Number φ))
  tool : Option String
  arguments : Fields (Number φ)
  timeoutSeconds : Option Nat

/-- A job; `call` is its spec if it is an MCP call. -/
structure RoutedJob (φ : Type) where
  jobId : String
  idempotencyKey : String
  call : Option (CallSpec φ)

/-- The installation of the relay: the command and the lock pin of its own JARVIS server, what
proves a server artifact to be that of a digest, and `CLIO_RELAY_DEV_MODE`. -/
class Installation (φ : Type) where
  jarvisMcpCommand : Except String (List String)
  jarvisCdLockBinding : Fields (Number φ)
  remoteArtifactVerified : Value (Number φ) → Option String → Bool
  jarvisArtifactVerified : Value (Number φ) → Option String → Bool
  devMode : Bool

/-- `REGISTERED_JARVIS_EXECUTION_CONTRACTS`. -/
def registeredContracts : List String := ["clio-kit-jarvis-user-v3.6", "clio-kit-jarvis-user-v3.7.2"]

/-- Go on under a condition. -/
def check (condition : Bool) (reason : String) : Except String Unit :=
  if condition then .ok () else .error reason

section Route

variable [PyFloat φ] [Installation φ]

/-- A `dict` or `None`. -/
def optionalDict : Option (Fields (Number φ)) → Value (Number φ)
  | none => .null
  | some d => .dict d

/-- `_trusted_jarvis_mcp_route`: the call, or why it is not one to JARVIS. -/
def trustedJarvisMcpRoute (job : RoutedJob φ) (expectedTool : String) :
    Except String (CallSpec φ) :=
  match job.call with
  | none => .error "relay job is not an MCP call"
  | some spec => do
    check (spec.tool = some expectedTool) s!"MCP tool is not the owned {expectedTool} operation"
    match spec.expectedRegisteredContract with
    | some contract =>
      check (registeredContracts.contains contract)
        "registered MCP call does not use the supported JARVIS contract"
      check spec.expectedJarvisCdLockBinding.isNone
        "registered JARVIS route also supplied a built-in lock pin"
      check spec.expectedServerArtifactDigest.isSome
        "MCP call is not bound to its discovered server artifact"
    | none =>
      match Installation.jarvisMcpCommand φ with
      | .error detail => .error s!"configured JARVIS MCP command is invalid: {detail}"
      | .ok command =>
        check (spec.server :: spec.serverArgs = command)
          "MCP command does not match the configured JARVIS server"
        check (sameValue (optionalDict spec.expectedJarvisCdLockBinding)
            (.dict Installation.jarvisCdLockBinding))
          "MCP call did not enforce the relay JARVIS-CD lock pin"
        check spec.expectedServerArtifactDigest.isSome
          "MCP call is not bound to its discovered server artifact"
    pure spec

/-- `_jarvis_mcp_result_identity_matches`: the entries of the result, or why it is not an answer
to the call. -/
def mcpResultIdentityMatches (job : RoutedJob φ) (document : Value (Number φ))
    (expectedTool : String) : Except String (Fields (Number φ)) := do
  let spec ← trustedJarvisMcpRoute job expectedTool
  match Worker.dict? document with
  | some typed =>
    check (sameValue (typed.get "server") (.str spec.server) &&
        sameValue (typed.get "server_args") (textList spec.serverArgs))
      "MCP result command does not match the durable job spec"
    check ((typed.get "operation").isStr "tools/call" &&
        sameValue (typed.get "tool") (optionalText spec.tool))
      "MCP result route does not match the durable job spec"
    check (sameValue (typed.get "arguments") (.dict spec.arguments))
      "MCP result arguments do not match the durable job spec"
    check (sameValue (typed.get "env_from") (.dict spec.envFrom))
      "MCP result environment references do not match the durable job spec"
    check (sameValue (typed.get "expected_jarvis_cd_lock_binding")
        (optionalDict spec.expectedJarvisCdLockBinding))
      "MCP result JARVIS-CD lock pin does not match the durable job spec"
    check (sameValue (typed.get "expected_registered_contract")
        (optionalText spec.expectedRegisteredContract))
      "MCP result registered contract does not match the durable job spec"
    check (Installation.devMode φ || sameValue (typed.get "expected_server_artifact_digest")
          (optionalText spec.expectedServerArtifactDigest) &&
        sameValue (typed.get "observed_server_artifact_digest")
          (optionalText spec.expectedServerArtifactDigest))
      "MCP result server artifact does not match the durable job spec"
    if spec.expectedRegisteredContract.isSome then
      check (Installation.devMode φ || Installation.remoteArtifactVerified
          (typed.get "server_artifact") spec.expectedServerArtifactDigest)
        "MCP result server artifact identity is not the immutable registered route"
    else
      check (Installation.devMode φ || Installation.jarvisArtifactVerified
          (typed.get "server_artifact") spec.expectedServerArtifactDigest)
        "MCP result server artifact identity is not the exact relay release pin"
    pure typed
  | none => .error "MCP result artifact is not an object"

/-- `_trusted_jarvis_mcp_result`. -/
def trustedJarvisMcpResult (job : RoutedJob φ) (document : Value (Number φ))
    (expectedTool : String) : Except String (Fields (Number φ)) := do
  let typed ← mcpResultIdentityMatches job document expectedTool
  check (sameValue (typed.get "returncode") (.num (.int 0)) &&
      !(typed.get "timed_out").isBool true && (typed.get "protocol_error").isNull)
    "MCP call did not complete successfully"
  match Worker.dict? (typed.get "structured_result"), Worker.dict? (typed.get "protocol_result") with
  | _, some protocol =>
    check (!(protocol.get "isError").isBool true) "JARVIS MCP tool returned isError"
  | some _, none => pure ()
  | none, none => .error "MCP result has no persisted structured protocol result"
  pure typed

end Route

/-! ### Refusals -/

/-- `JarvisDispatchRefusal`. -/
structure Refusal where
  code : String
  message : String
  pipelineId : Option String
  executionId : Option String
  payloadSchemaVersion : Option String

/-- `JARVIS_DISPATCH_REFUSAL_SCHEMA`. -/
def refusalSchema : String := "clio-relay.jarvis-dispatch-refusal.v1"

/-- `JARVIS_ERROR_PAYLOAD_SCHEMA`. -/
def errorPayloadSchema : String := "jarvis.error.v1"

/-- `as_payload`. -/
def Refusal.payload (refusal : Refusal) : Fields (Number φ) :=
  [("schema_version", .str refusalSchema), ("code", .str refusal.code),
    ("message", .str refusal.message), ("pipeline_id", optionalText refusal.pipelineId),
    ("execution_id", optionalText refusal.executionId),
    ("payload_schema_version", optionalText refusal.payloadSchemaVersion)]

/-- `isinstance(value, str) and value`. -/
def nonemptyText (value : Value (Number φ)) : Option String :=
  value.str?.bind fun s => if s = "" then none else some s

/-- `message[:MAX_REFUSAL_MESSAGE_CHARS]`. -/
def refusalMessage (message : String) : String := String.ofList (message.toList.take 2000)

/-- The refusal of an answer with JARVIS's own error document. -/
def typedRefusal (typed : Fields (Number φ)) : Option Refusal :=
  (Worker.dict? (typed.get "structured_result")).bind fun payload =>
    if (payload.get "schema_version").isStr errorPayloadSchema then do
      let error ← Worker.dict? (payload.get "error")
      let code ← nonemptyText (error.get "code")
      let message ← nonemptyText (error.get "message")
      some ⟨code, refusalMessage message, nonemptyText (error.get "pipeline_id"),
        nonemptyText (error.get "execution_id"), some errorPayloadSchema⟩
    else none

/-- The refusal of an answer that only says `isError`. -/
def untypedRefusal (typed : Fields (Number φ)) : Refusal :=
  let message := (nonemptyText (typed.get "protocol_error")).getD
    "the JARVIS MCP tool returned isError without a typed payload"
  ⟨"jarvis_tool_error", refusalMessage message, none, none, none⟩

/-- `jarvis_dispatch_refusal`: an answer that came too late is not one. -/
def jarvisDispatchRefusal (typed : Fields (Number φ)) : Option Refusal :=
  (Worker.dict? (typed.get "protocol_result")).bind fun protocol =>
    if !(typed.get "timed_out").isBool true && (protocol.get "isError").isBool true then
      some ((typedRefusal typed).getD (untypedRefusal typed))
    else none

/-- `_attributed_jarvis_dispatch_refusal`. -/
def attributedJarvisDispatchRefusal [PyFloat φ] [Installation φ] (job : RoutedJob φ)
    (document : Value (Number φ)) : Option Refusal :=
  match mcpResultIdentityMatches job document "jarvis_run" with
  | .error _ => none
  | .ok typed => jarvisDispatchRefusal typed

/-! ### Reasons -/

theorem append_ne_empty (front : String) {back : String} (h : front ≠ "") : front ++ back ≠ "" :=
  fun hempty => h (String.append_eq_empty_iff.1 hempty).1

/-- What fails does so for a reason. -/
def Reasoned {α : Type} (result : Except String α) : Prop :=
  ∀ reason, result = .error reason → reason ≠ ""

section Reasoned

variable {α β : Type}

theorem Reasoned.check {condition : Bool} {reason : String} (h : reason ≠ "") :
    Reasoned (check condition reason) := by
  intro _ herr
  unfold Recovery.check at herr
  split_ifs at herr
  cases herr
  exact h

theorem Reasoned.pure (value : α) : Reasoned (pure value : Except String α) := by
  intro _ herr
  cases herr

theorem Reasoned.error {reason : String} (h : reason ≠ "") :
    Reasoned (.error reason : Except String α) := by
  intro _ herr
  cases herr
  exact h

theorem Reasoned.bind {first : Except String α} {next : α → Except String β}
    (h : Reasoned first) (hnext : ∀ a, Reasoned (next a)) : Reasoned (first >>= next) := by
  rcases first with _ | value
  · exact fun reason' herr => h reason' (by cases herr; rfl)
  · exact hnext value

end Reasoned

section Results

variable [PyFloat φ] [Installation φ]

/-- The trusted route of a job fails only with a reason. -/
theorem reasoned_route (job : RoutedJob φ) (tool : String) :
    Reasoned (trustedJarvisMcpRoute job tool) := by
  unfold trustedJarvisMcpRoute
  rcases job.call with _ | spec
  · exact .error (by decide)
  · refine .bind (.check ?_) fun _ => ?_
    · exact append_ne_empty _ (append_ne_empty "MCP tool is not the owned " (by decide))
    rcases spec.expectedRegisteredContract with _ | _
    · dsimp only
      rcases Installation.jarvisMcpCommand φ with _ | command
      · refine .bind (.error ?_) fun _ => .pure spec
        exact append_ne_empty "configured JARVIS MCP command is invalid: " (by decide)
      · exact .bind (.check (by decide)) fun _ => .bind (.check (by decide)) fun _ =>
          .bind (.check (by decide)) fun _ => .pure spec
    · exact .bind (.check (by decide)) fun _ => .bind (.check (by decide)) fun _ =>
        .bind (.check (by decide)) fun _ => .pure spec

theorem reasoned_identity (job : RoutedJob φ) (document : Value (Number φ)) (tool : String) :
    Reasoned (mcpResultIdentityMatches job document tool) := by
  refine .bind (reasoned_route job tool) fun spec => ?_
  rcases Worker.dict? document with _ | typed
  · exact .error (by decide)
  · refine .bind (.check (by decide)) fun _ => .bind (.check (by decide)) fun _ =>
      .bind (.check (by decide)) fun _ => .bind (.check (by decide)) fun _ =>
      .bind (.check (by decide)) fun _ => .bind (.check (by decide)) fun _ =>
      .bind (.check (by decide)) fun _ => ?_
    split
    all_goals exact .bind (.check (by decide)) fun _ => .pure typed

/-- **A result that is not trusted is refused for a reason.** -/
theorem reasoned_result (job : RoutedJob φ) (document : Value (Number φ)) (tool : String) :
    Reasoned (trustedJarvisMcpResult job document tool) := by
  refine .bind (reasoned_identity job document tool) fun typed => .bind (.check (by decide)) fun _ => ?_
  split
  · exact .bind (.check (by decide)) fun _ => .pure typed
  · exact .pure typed
  · exact .bind (.error (by decide)) fun _ => .pure typed

end Results

end ClioQueue.Recovery
