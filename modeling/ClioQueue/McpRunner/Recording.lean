/-
# What the runner records of a session

The `stdout` of a completed session is cut into lines once more, by `str.splitlines`: for the error
of the protocol (`protocolError`) and for the documents that `_write_mcp_result` records
(`writeMcpResult`).  The record's fields that do not come from `stdout` are left out.
-/

import ClioQueue.McpRunner.Stdio

namespace ClioQueue.McpRunner

open Wire

section

variable {φ : Type} [JsonText φ]

/-- The message of a line that is not blank. -/
def lineMessage (line : Text) : Option (Fields (Number φ)) :=
  if isBlankLine line then none else decodedJsonObject line

/-- Whether a message's id is that of the operation's response, or of a page. -/
def matchingId (operation : Operation) (message : Fields (Number φ)) : Bool :=
  match message.get "id" with
  | .str id => id = responseId operation ||
    operation = .toolsList && (responseId operation ++ "-page-").toList.isPrefixOf id.toList
  | _ => false

/-- The loop of `_protocol_error`. -/
def protocolErrorIn (φ : Type) [JsonText φ] (operation : Operation) :
    Bool → List Text → Option Text
  | responseSeen, [] =>
    if responseSeen then none else some s!"missing {operation.name} response".toList
  | responseSeen, line :: lines =>
    match (lineMessage line : Option (Fields (Number φ))) with
    | none => protocolErrorIn φ operation responseSeen lines
    | some message =>
      if !matchingId operation message then protocolErrorIn φ operation responseSeen lines
      else if !(message.get "error").isNull then
        some (message.get "error").sortKeys.spaced
      else if operation = .toolsCall && (resultOf message).any isError then
        some "tools/call returned isError=true".toList
      else protocolErrorIn φ operation true lines

/-- `_protocol_error`. -/
def protocolError (φ : Type) [JsonText φ] (operation : Operation) (stdout : Text) : Option Text :=
  protocolErrorIn φ operation false (splitlines stdout)

/-- The loop of `_response_result`. -/
def responseResultIn (responseId : String) :
    Option (Fields (Number φ)) → List Text → Option (Fields (Number φ))
  | matched, [] => matched
  | matched, line :: lines =>
    match lineMessage line with
    | none => responseResultIn responseId matched lines
    | some message =>
      if (message.get "id").isStr responseId then
        responseResultIn responseId (resultOf message) lines
      else responseResultIn responseId matched lines

/-- `_response_result`. -/
def responseResult (responseId : String) (stdout : Text) : Option (Fields (Number φ)) :=
  responseResultIn responseId none (splitlines stdout)

/-- The object that an item of type `text` writes. -/
def decodedContent : Value (Number φ) → Option (Fields (Number φ))
  | .dict item =>
    if (Fields.get item "type").isStr "text" then
      match Fields.get item "text" with
      | .str text => decodedJsonObject text.toList
      | _ => none
    else none
  | _ => none

/-- `_structured_result`. -/
def structuredResult (operation : Operation) (protocolResult : Option (Fields (Number φ))) :
    Option (Fields (Number φ)) :=
  match operation, protocolResult with
  | .toolsCall, some result =>
    match result.get "structuredContent" with
    | .dict structured => some structured
    | _ =>
      match result.get "content" with
      | .list content => content.findSome? decodedContent
      | _ => none
  | _, _ => none

/-- What `_write_mcp_result` reads from `stdout`. -/
structure McpResult (φ : Type) where
  protocolResult : Option (Fields (Number φ))
  structuredResult : Option (Fields (Number φ))
  protocolVersion : Value (Number φ)
  serverInfo : Value (Number φ)
  pagination : Option (Value (Number φ))

/-- `dict(d)` after `pop(key)`. -/
def without (d : Fields (Number φ)) (key : String) : Fields (Number φ) := d.filter (·.1 ≠ key)

/-- The pages of a result are recorded beside it. -/
def splitPagination (result : Option (Fields (Number φ))) :
    Option (Fields (Number φ)) × Option (Value (Number φ)) :=
  match result with
  | none => (none, none)
  | some result =>
    match result.get toolsListPaginationKey with
    | .dict pagination => (some (without result toolsListPaginationKey), some (.dict pagination))
    | _ => (some result, none)

/-- `_write_mcp_result`. -/
def writeMcpResult (operation : Operation) (stdout : Text) : McpResult φ :=
  let (protocolResult, pagination) := splitPagination (responseResult (responseId operation) stdout)
  let initializeResult : Option (Fields (Number φ)) := responseResult "clio-relay-mcp-init" stdout
  { protocolResult := protocolResult
    structuredResult := structuredResult operation protocolResult
    protocolVersion := (initializeResult.map (·.get "protocolVersion")).getD .null
    serverInfo := (initializeResult.map fun result =>
      if result.has "serverInfo" then result.get "serverInfo" else .dict []).getD (.dict [])
    pagination := pagination }

end

end ClioQueue.McpRunner
