/-
# One MCP session over stdio

The runner writes requests to a child process and reads its standard output: a thread cuts the pipe
into lines (`startReader`), and the session takes them off a queue until the response it waits for
has come (`waitForResponse`).  What the session wrote and the deadlines, which end a session early,
are left out, and so are the interpreter's own limits on nesting and on the digits of an `int`.
-/

import ClioQueue.Wire.Codec
import Mathlib.Data.List.Dedup

namespace ClioQueue.McpRunner

open Wire

abbrev Text : Type := List Char

/-! ### Constants -/

def toolsListMaxPages : Nat := 64
def toolsListMaxTools : Nat := 10000
def toolsListMaxResponseBytes : Nat := 16 * 1024 * 1024
def mcpInitializeMaxResponseBytes : Nat := 1024 * 1024
def mcpCallMaxResponseBytes : Nat := 16 * 1024 * 1024
def mcpSessionMaxStdoutBytes : Nat := 32 * 1024 * 1024
def toolsListPaginationKey : String := "_clioRelayPagination"

/-- The operation of a session. -/
inductive Operation where
  | toolsCall
  | toolsList
deriving DecidableEq

def Operation.name : Operation → String
  | .toolsCall => "tools/call"
  | .toolsList => "tools/list"

/-- `_response_id`. -/
def responseId : Operation → String
  | .toolsCall => "clio-relay-mcp-call"
  | .toolsList => "clio-relay-mcp-tools-list"

/-! ### The reader -/

/-- `_StreamEvent`. -/
inductive StreamEvent where
  | line (text : Text)
  | limit (message : String)
  | closed
deriving DecidableEq

/-- `_start_reader`, from the bytes captured and the fragments that are pending: the events it puts
for the fragments that `readline` returns. -/
def startReader (maxBytes : Nat) : Nat → Text → List Text → List StreamEvent
  | _, pending, [] => if pending.isEmpty then [.closed] else [.line pending, .closed]
  | capturedBytes, pending, fragment :: fragments =>
    -- what follows a limit is read and dropped
    if maxBytes < capturedBytes + byteLength fragment then
      [.limit s!"MCP server stdout exceeded maximum capture size {maxBytes} bytes", .closed]
    else if fragment.getLast? = some '\n' then
      .line (pending ++ fragment) ::
        startReader maxBytes (capturedBytes + byteLength fragment) [] fragments
    else startReader maxBytes (capturedBytes + byteLength fragment) (pending ++ fragment) fragments

/-- The fragments that `readline` returns of newline-terminated texts. -/
structure Chunks (texts fragments : List Text) : Prop where
  newline : ∀ text ∈ texts, '\n' ∉ text
  joined : fragments.flatten = texts.flatMap (· ++ ['\n'])
  ends : ∀ fragment ∈ fragments, '\n' ∉ fragment.dropLast

/-! ### Waiting for a response -/

section

variable {φ : Type} [JsonText φ]

/-- `_decoded_json_object`. -/
def decodedJsonObject (text : Text) : Option (Fields (Number φ)) :=
  match (JsonText.loads text : Option (Value (Number φ))) with
  | some (.dict fields) => some fields
  | _ => none

/-- The queue of a session, the lines it has taken, the bytes of the responses it waits for, and the
state of the progress bridge. -/
structure Stdio (σ : Type) where
  events : List StreamEvent
  lines : List Text
  responseBytes : Nat
  bridge : σ

/-- Why a session stops: a `_McpProtocolFailure`, or a queue that stays empty. -/
inductive Stop where
  | failure (message : String)
  | blocked

abbrev Session (σ : Type) : Type → Type := EStateM Stop (Stdio σ)

/-- What a session waits for. -/
structure Request where
  responseId : String
  maxResponseBytes : Nat
  responseLabel : String

/-- `progress_bridge.observe`: with a message, from the bridge's state to the next one or to a
failure. -/
abbrev Observe (φ σ : Type) : Type := Fields (Number φ) → σ → Except String σ

variable {σ : Type}

/-- `notification_handler`. -/
def notify (handler : Option (Observe φ σ)) (message : Fields (Number φ)) (bridge : σ) :
    Except String σ :=
  match handler with
  | none => .ok bridge
  | some observe =>
    if (message.get "method").isStr "notifications/progress" then observe message bridge
    else .ok bridge

/-- The failure of a stream that was closed; the process may have ended. -/
def closedMessage (returncode : Option Int) (request : Request) : String :=
  match returncode with
  | none => s!"MCP server stdout closed before response {request.responseId}"
  | some code =>
    s!"MCP server stdout closed before response {request.responseId} with return code {code}"

/-- `_wait_for_response`, from the events of the queue on. -/
def waitForEvents (returncode : Option Int) (handler : Option (Observe φ σ)) (request : Request) :
    List StreamEvent → List Text → Nat → σ → EStateM.Result Stop (Stdio σ) (Fields (Number φ))
  | [], lines, bytes, bridge => .error .blocked ⟨[], lines, bytes, bridge⟩
  | .closed :: events, lines, bytes, bridge =>
    .error (.failure (closedMessage returncode request)) ⟨events, lines, bytes, bridge⟩
  | .limit message :: events, lines, bytes, bridge =>
    .error (.failure message) ⟨events, lines, bytes, bridge⟩
  | .line line :: events, lines, bytes, bridge =>
    let lines := lines ++ [line]
    let bytes := bytes + byteLength line
    if request.maxResponseBytes < bytes then
      .error (.failure s!"{request.responseLabel} exceeded maximum response size {request.maxResponseBytes} bytes")
        ⟨events, lines, bytes, bridge⟩
    else
      match decodedJsonObject line with
      | none => waitForEvents returncode handler request events lines bytes bridge
      | some message =>
        match notify handler message bridge with
        | .error message => .error (.failure message) ⟨events, lines, bytes, bridge⟩
        | .ok bridge =>
          if (message.get "id").isStr request.responseId then
            .ok message ⟨events, lines, bytes, bridge⟩
          else waitForEvents returncode handler request events lines bytes bridge

/-- `_wait_for_response`. -/
def waitForResponse (returncode : Option Int) (handler : Option (Observe φ σ)) (request : Request) :
    Session σ (Fields (Number φ)) := fun s =>
  waitForEvents returncode handler request s.events s.lines s.responseBytes s.bridge

/-- `response_bytes = [0]`. -/
def resetResponseBytes : Session σ Unit := modify fun s => { s with responseBytes := 0 }

def fail {α : Type} (message : String) : Session σ α := throw (.failure message)

/-! ### A call -/

/-- The `result` of a message, if it is an object. -/
def resultOf (message : Fields (Number φ)) : Option (Fields (Number φ)) :=
  match message.get "result" with
  | .dict result => some result
  | _ => none

/-- `isError is True`. -/
def isError (result : Fields (Number φ)) : Bool := (result.get "isError").isBool true

/-- `_run_jarvis_input_reconciliation`, from the `index`-th step on. -/
def reconcileSteps (returncode : Option Int) : Nat → List String → Session σ Unit
  | _, [] => pure ()
  | index, stepId :: stepIds => do
    let response : Fields (Number φ) ← waitForResponse returncode none
      ⟨s!"clio-relay-mcp-input-reconcile-{index}", mcpCallMaxResponseBytes,
        "JARVIS input reconciliation"⟩
    if !(response.get "error").isNull then
      fail s!"JARVIS input reconciliation failed for step {stepId}"
    else
      match resultOf response with
      | none => fail s!"JARVIS input reconciliation was rejected for step {stepId}"
      | some result =>
        if isError result then fail s!"JARVIS input reconciliation was rejected for step {stepId}"
        else reconcileSteps returncode (index + 1) stepIds

/-- `_run_jarvis_input_reconciliation`: the bindings of a manifest are a step and one of its
settings. -/
def runJarvisInputReconciliation (φ : Type) [JsonText φ] (returncode : Option Int)
    (bindings : List (String × String)) : Session σ Unit :=
  if ¬ bindings.Nodup then
    fail "JARVIS input manifest repeated one step setting during materialization"
  else do
    resetResponseBytes
    reconcileSteps (φ := φ) returncode 1 ((bindings.map Prod.fst).dedup.mergeSort (· ≤ ·))

/-- The reconciliation of a call that has an input manifest. -/
def reconcileInputs (φ : Type) [JsonText φ] (returncode : Option Int) :
    Option (List (String × String)) → Session σ Unit
  | some bindings => runJarvisInputReconciliation φ returncode bindings
  | none => pure ()

/-- The session of a tools/call, up to the response to it. -/
def receiveCall (returncode : Option Int) (handler : Option (Observe φ σ))
    (bindings : Option (List (String × String))) : Session σ (Fields (Number φ)) := do
  resetResponseBytes
  let _ : Fields (Number φ) ← waitForResponse returncode none
    ⟨"clio-relay-mcp-init", mcpInitializeMaxResponseBytes, "initialize"⟩
  reconcileInputs φ returncode bindings
  resetResponseBytes
  waitForResponse returncode handler ⟨responseId .toolsCall, mcpCallMaxResponseBytes, "tools/call"⟩

/-! ### A list of tools -/

/-- `tools_by_name`, in the order of insertion. -/
abbrev ToolsByName (φ : Type) : Type := List (String × Value (Number φ))

/-- The entries of one page are added to the tools. -/
def collectTools : List (Value (Number φ)) → ToolsByName φ → Except String (ToolsByName φ)
  | [], tools => .ok tools
  | .dict value :: values, tools =>
    match Fields.get value "name" with
    | .str name =>
      if name = "" then .error "tools/list entries must have non-empty names"
      else
        match tools.lookup name with
        | some existing =>
          if existing.plain = (Value.dict value).plain then collectTools values tools
          else .error s!"tools/list returned conflicting definitions for tool {name}"
        | none =>
          if toolsListMaxTools < tools.length + 1 then
            .error s!"tools/list exceeded maximum tool count {toolsListMaxTools}"
          else collectTools values (tools ++ [(name, .dict value)])
    | _ => .error "tools/list entries must have non-empty names"
  | _ :: _, _ => .error "tools/list entries must be objects"

/-- What `_run_bounded_tools_list` has collected: the tools, the cursors and the number of pages;
and the results of the pages, which only statements about it read. -/
structure Listing (φ : Type) where
  toolsByName : ToolsByName φ
  seenCursors : List String
  pages : Nat
  results : List (Fields (Number φ))

/-- The id of the request for the next page. -/
def pageId (pages : Nat) : String :=
  if pages = 0 then "clio-relay-mcp-tools-list"
  else s!"clio-relay-mcp-tools-list-page-{pages + 1}"

/-- The tools of a page's result. -/
def pageTools (result : Fields (Number φ)) : List (Value (Number φ)) :=
  match result.get "tools" with
  | .list tools => tools
  | _ => []

/-- What follows a page: the flag says whether there is another one. -/
def nextPage (nextCursor : Value (Number φ)) (listing : Listing φ) :
    Except String (Bool × Listing φ) :=
  match nextCursor with
  | .null => .ok (false, listing)
  | .str cursor =>
    if cursor ∈ listing.seenCursors then .error "tools/list returned a repeated nextCursor"
    else .ok (true, { listing with seenCursors := cursor :: listing.seenCursors })
  | _ => .error "tools/list nextCursor must be a string"

/-- The result of a page is added. -/
def addPage (result : Fields (Number φ)) (listing : Listing φ) : Except String (Bool × Listing φ) :=
  match result.get "tools" with
  | .list rawTools =>
    match collectTools rawTools listing.toolsByName with
    | .error message => .error message
    | .ok tools => nextPage (result.get "nextCursor") { listing with
        toolsByName := tools
        pages := listing.pages + 1
        results := listing.results ++ [result] }
  | _ => .error "tools/list response must contain a tools array"

/-- The loop of `_run_bounded_tools_list`, with the number of pages that are still allowed; it ends
with no listing where a page carries an error. -/
def listPages (returncode : Option Int) : Nat → Listing φ → Session σ (Option (Listing φ))
  | 0, _ => fail s!"tools/list exceeded maximum page count {toolsListMaxPages}"
  | allowed + 1, listing => do
    let response : Fields (Number φ) ← waitForResponse returncode none
      ⟨pageId listing.pages, toolsListMaxResponseBytes, "tools/list"⟩
    if !(response.get "error").isNull then pure none
    else
      match resultOf response with
      | none => fail "tools/list response result must be an object"
      | some result =>
        match addPage result listing with
        | .error message => fail message
        | .ok (true, listing) => listPages returncode allowed listing
        | .ok (false, listing) => pure (some listing)

/-- The message that stands for all pages. -/
def aggregate (listing : Listing φ) (responseBytes : Nat) : Value (Number φ) :=
  .dict [("jsonrpc", .str "2.0"), ("id", .str "clio-relay-mcp-tools-list"),
    ("result", .dict [("tools", .list (listing.toolsByName.map Prod.snd)),
      (toolsListPaginationKey, .dict [("pages", .num (.int listing.pages)),
        ("tools", .num (.int listing.toolsByName.length)),
        ("response_bytes", .num (.int responseBytes)),
        ("limits", .dict [("max_pages", .num (.int toolsListMaxPages)),
          ("max_tools", .num (.int toolsListMaxTools)),
          ("max_response_bytes", .num (.int toolsListMaxResponseBytes))])])])]

/-- The message for all pages is added to the lines. -/
def appendAggregate : Option (Listing φ) → Session σ Unit
  | none => pure ()
  | some listing => modify fun s =>
    { s with lines := s.lines ++ [(aggregate listing s.responseBytes).asciiCompact ++ ['\n']] }

/-- `_run_bounded_tools_list`. -/
def runBoundedToolsList (returncode : Option Int) : Session σ (Option (Listing φ)) := do
  resetResponseBytes
  let listed : Option (Listing φ) ← listPages returncode toolsListMaxPages ⟨[], [], 0, []⟩
  appendAggregate listed
  pure listed

/-- The session of a tools/list. -/
def receiveList (returncode : Option Int) : Session σ (Option (Listing φ)) := do
  resetResponseBytes
  let _ : Fields (Number φ) ← waitForResponse returncode none
    ⟨"clio-relay-mcp-init", mcpInitializeMaxResponseBytes, "initialize"⟩
  runBoundedToolsList returncode

/-! ### The session -/

/-- `_drain_available`: what an event adds to the lines. -/
def drainEvent : StreamEvent → List Text
  | .line text => [text]
  | .limit message => [("\n[" ++ message ++ "]\n").toList]
  | .closed => []

/-- The message of a session that failed. -/
def failureLine (operation : Operation) (message : String) : Text :=
  (Value.dict [("jsonrpc", .str "2.0"), ("id", .str (responseId operation)),
    ("error", .dict [("code", .num (.int (-32000))), ("message", .str message)])] :
    Value (Number φ)).asciiCompact ++ ['\n']

/-- A session that ended: what it received, the lines it had taken then, and the lines that were
drained from the queue afterwards. -/
structure Ended (α : Type) where
  received : Option α
  lines : List Text
  late : List Text

/-- The `stdout` of the completed process. -/
def Ended.stdout {α : Type} (ended : Ended α) : Text := (ended.lines ++ ended.late).flatten

/-- `_run_mcp_session` after the launcher is ready: the session's part runs on the events of the
queue, and the first `available` of the events that are left are drained. -/
def runMcpSession (φ : Type) [JsonText φ] {α : Type} (operation : Operation) (session : Session σ α)
    (available : Nat) (events : List StreamEvent) (bridge : σ) : Option (Ended α) :=
  match session ⟨events, [], 0, bridge⟩ with
  | .ok received s => some ⟨some received, s.lines, (s.events.take available).flatMap drainEvent⟩
  | .error (.failure message) s =>
    some ⟨none, s.lines ++ [failureLine (φ := φ) operation message],
      (s.events.take available).flatMap drainEvent⟩
  | .error .blocked _ => none

end

end ClioQueue.McpRunner
