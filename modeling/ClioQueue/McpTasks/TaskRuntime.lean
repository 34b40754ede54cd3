/-
# The runtime of MCP tasks

`RelayMcpRuntime` of `mcp_task_runtime.py`: `create_task` makes the durable record of a relay job
that a tool call was admitted for, and parks the follow-up question to an agent; `task_status`
projects the job's state and stores its result once it is terminal; `update_task` applies answers.
Each is a program over the directory of task records, in which every operation of the queue is one
action; a write compares the `updated_at` of the record that the program read, and starts over from
a newer one when it was overtaken.
-/

import ClioQueue.Durable.Interleaving
import ClioQueue.McpTasks.TaskResults

namespace ClioQueue.McpTasks

open Durable Wire

variable {φ : Type}

/-- What `task_status` reads of a relay job. -/
structure JobStatus where
  state : JobState
  lastError : Option String
  updatedAt : Int
  phaseMessage : Option String

/-- The actions of the runtime: the clock; the three operations of the queue on task records; the
relay's `wait_mcp_job`, with the route, a timeout of 0.01 s and no logs; `status_mcp_job` of a remote
job and `get_job` of a local one. -/
inductive TaskOp (φ : Type) where
  | utcNow
  | putMcpTask (task : TaskRecord φ)
  | updateMcpTaskProjection (taskId : DurableRecordId) (projection : TaskProjection φ)
    (expectedUpdatedAt : Int) (state : Option JobState)
  | getMcpTask (taskId : DurableRecordId)
  | waitMcpJob (route : Fields (Number φ))
  | statusMcpJob (route : Fields (Number φ))
  | getJob (jobId : DurableRecordId)

/-- The answer to an action; `status_mcp_job` may have no job in it. -/
abbrev TaskOp.Answer : TaskOp φ → Type
  | .utcNow => Int
  | .putMcpTask _ | .updateMcpTaskProjection .. | .getMcpTask _ => Except TaskError (TaskRecord φ)
  | .waitMcpJob _ => Except TaskError (Fields (Number φ))
  | .statusMcpJob _ => Except TaskError (Option JobStatus)
  | .getJob _ => Except TaskError JobStatus

/-- A program of the runtime. -/
abbrev TaskProgram (φ α : Type) : Type := Proc (TaskOp φ) TaskOp.Answer TaskError α

/-- One action. -/
def act (op : TaskOp φ) : TaskProgram φ op.Answer := Proc.perform op

/-- Go on under a condition. -/
def require (condition : Bool) (e : TaskError) : TaskProgram φ Unit :=
  Proc.ofExcept (ensure condition e)

namespace Queue

/-- `queue.put_mcp_task`. -/
def putMcpTask (task : TaskRecord φ) : TaskProgram φ (TaskRecord φ) := do
  let answer : Except TaskError (TaskRecord φ) ← act (.putMcpTask task)
  Proc.ofExcept answer

/-- `queue.update_mcp_task_projection`, with what it raises. -/
def updateMcpTaskProjection (taskId : DurableRecordId) (projection : TaskProjection φ)
    (expectedUpdatedAt : Int) (state : Option JobState) :
    TaskProgram φ (Except TaskError (TaskRecord φ)) :=
  act (.updateMcpTaskProjection taskId projection expectedUpdatedAt state)

/-- `queue.get_mcp_task`. -/
def getMcpTask (taskId : DurableRecordId) : TaskProgram φ (TaskRecord φ) := do
  let answer : Except TaskError (TaskRecord φ) ← act (.getMcpTask taskId)
  Proc.ofExcept answer

end Queue

/-! ### The route and the result of a job -/

/-- `_route_arguments`. -/
def routeArguments (record : TaskRecord φ) : Except TaskError (Fields (Number φ)) :=
  let initial := record.projection.initialResult
  if (initial.get "remote").isBool true then
    match initial.get "cluster", initial.get "route_revision" with
    | .str cluster, .str routeRevision =>
      .ok [("job_id", .str record.jobId.value), ("cluster", .str cluster),
        ("route_revision", .str routeRevision)]
    | _, _ => .error (.value "remote MCP task omitted its immutable relay route")
  else .ok [("job_id", .str record.jobId.value)]

section

variable [PyFloat φ] [McpTypes φ]

/-- `_terminal_completed_result`. -/
def terminalCompletedResult (record : TaskRecord φ) : TaskProgram φ (Fields (Number φ)) := do
  let route ← Proc.ofExcept (routeArguments record)
  let answer : Except TaskError (Fields (Number φ)) ← act (.waitMcpJob route)
  let waited ← Proc.ofExcept answer
  Proc.ofExcept (callToolResultDocument waited)

/-! ### Creation -/

/-- The projection with the follow-up question outstanding. -/
def parkedProjection (projection : TaskProjection φ)
    (outstanding : List (String × Fields (Number φ))) (requestState : String) :
    TaskProjection φ :=
  { projection with
    issuedInputKeys := projection.issuedInputKeys ++ outstanding.map Prod.fst
    inputRound := some
      { leg := 1, outstanding := outstanding, answered := JsonDict.empty,
        requestState := some requestState } }

/-- The follow-up question of the guard. -/
def agentInputRequests (context : InputContext φ) (taskId : DurableRecordId) :
    Except TaskError (List (String × Fields (Number φ)) × String) := do
  match ← postAdmissionAgentInputGuard context taskId with
  | .response _ =>
    .error (.value "post-admission agent input did not originate an input round")
  | .inputRequired requests requestState =>
    ensure (requests.map Prod.fst = [agentInputKey])
      (.value "post-admission agent input produced an unexpected request set")
    pure (requests, requestState)

/-- The attempts of `_park_agent_input` from a candidate on, for the task `taskId`. -/
def parkAttempts (context : InputContext φ) (taskId : DurableRecordId) :
    Nat → TaskRecord φ → TaskProgram φ (TaskRecord φ)
  | 0, _ => Proc.raise (.parkConflict
    s!"MCP task input could not park after concurrent updates: {taskId}")
  | attempts + 1, candidate =>
    if candidate.projection.inputRound.isSome then pure candidate
    else do
      let (outstanding, requestState) ←
        Proc.ofExcept (agentInputRequests context candidate.taskId)
      let projection := parkedProjection candidate.projection outstanding requestState
      require projection.isValid .validation
      match ← Queue.updateMcpTaskProjection candidate.taskId projection candidate.updatedAt none with
      | .ok updated => pure updated
      | .error e =>
        if e.isConflict then do
          let newer ← Queue.getMcpTask candidate.taskId
          parkAttempts context taskId attempts newer
        else Proc.raise e

/-- `_park_agent_input`. -/
def parkAgentInput (record : TaskRecord φ) (context : InputContext φ) :
    TaskProgram φ (TaskRecord φ) :=
  parkAttempts context record.taskId 8 record

/-- `RelayTool`. -/
structure RelayTool where
  name : String
  catalogRevision : Option String

/-- `JobState(value)`. -/
def jobStateOf (value : String) : Option JobState :=
  [.queued, .leased, .running, .succeeded, .failed, .canceled].find? fun state =>
    state.value = value

/-- The job and its state in a receipt. -/
def receiptOf (structured : Option (Fields (Number φ))) :
    Option (Fields (Number φ) × String × JobState) := do
  let receipt ← structured
  let jobId ← (receipt.get "job_id").str?
  let state ← (receipt.get "state").str?
  pure (receipt, jobId, ← jobStateOf state)

/-- `RelayMcpTaskRecord(task_id=job_id, job_id=job_id, state=state, projection=projection)`. -/
def newTaskRecord (jobId : String) (state : JobState) (projection : TaskProjection φ) :
    TaskProgram φ (TaskRecord φ) := do
  let createdAt : Int ← act .utcNow
  let updatedAt : Int ← act .utcNow
  if h : isDurableRecordId jobId = true then
    pure { taskId := ⟨jobId, h⟩, jobId := ⟨jobId, h⟩, state := state, createdAt := createdAt,
           updatedAt := updatedAt, projection := projection }
  else Proc.raise .validation

/-- The projection with the result of a job that the call ran to completion; what goes wrong while
the result is fetched defers it. -/
def eagerProjection (jobId : String) (state : JobState) (projection : TaskProjection φ) :
    TaskProgram φ (TaskProjection φ) := do
  let provisional ← newTaskRecord jobId state projection
  let completedResult ← (terminalCompletedResult provisional).attempt
  let completed := { projection with completedResult := completedResult.toOption }
  require completed.isValid .validation
  pure completed

/-- The projection, with the result of a job that ended otherwise than by its cancellation. -/
def resolvedProjection (jobId : String) (state : JobState) (projection : TaskProjection φ) :
    TaskProgram φ (TaskProjection φ) :=
  if state.terminal && state ≠ .canceled then eagerProjection jobId state projection
  else pure projection

/-- The saved record of a call, with the follow-up question that the call asked for. -/
def parkedTask (tool : RelayTool) (arguments : Fields (Number φ))
    (context : Option (InputContext φ)) (saved : TaskRecord φ) : TaskProgram φ (TaskRecord φ) :=
  if agentInputEnabled tool.name arguments then
    match context with
    | none => Proc.raise (.value "post-admission agent input requires an MCP task context")
    | some context => parkAgentInput saved context
  else pure saved

/-- The projection of a call with the receipt of its job. -/
def initialProjection (profile : String) (tool : RelayTool) (arguments : Fields (Number φ))
    (receipt : Fields (Number φ)) : TaskProjection φ :=
  { toolName := tool.name, profile := profile, arguments := arguments,
    catalogRevision := tool.catalogRevision, initialResult := receipt, issuedInputKeys := [],
    inputRound := none, completedResult := none, protocolError := none }

/-- `create_task` under a profile. -/
def createTask (profile : String) (tool : RelayTool) (arguments : Fields (Number φ))
    (structured : Option (Fields (Number φ))) (context : Option (InputContext φ)) :
    TaskProgram φ (Option (TaskRecord φ)) :=
  match receiptOf structured with
  | none => pure none
  | some (receipt, jobId, state) => do
    require (byteLength (Value.dumps (.dict arguments)) ≤ maxArgumentBytes)
      (.value "task arguments exceed the durable MCP projection limit")
    let initial := initialProjection profile tool arguments receipt
    require initial.isValid .validation
    let projection ← resolvedProjection jobId state initial
    let record ← newTaskRecord jobId state projection
    let saved ← Queue.putMcpTask record
    let task ← parkedTask tool arguments context saved
    pure (some task)

/-! ### Status -/

/-- The fields that every status of a record has. -/
def commonResult (record : TaskRecord φ) (status : McpTaskStatus) : GetTaskResult φ :=
  { status := status, taskId := record.taskId, createdAt := record.createdAt,
    lastUpdatedAt := record.updatedAt }

/-- The job of a task, a remote one through its route. -/
def jobStatus (record : TaskRecord φ) : TaskProgram φ JobStatus := do
  let route ← Proc.ofExcept (routeArguments record)
  if (record.projection.initialResult.get "remote").isBool true then
    let answer : Except TaskError (Option JobStatus) ← act (.statusMcpJob route)
    match ← Proc.ofExcept answer with
    | some job => pure job
    | none => Proc.raise (.value "relay status omitted its durable job record")
  else
    let answer : Except TaskError JobStatus ← act (.getJob record.jobId)
    Proc.ofExcept answer

/-- The observation of a result. -/
def resultObservation (result : Fields (Number φ)) : String :=
  if (result.get "isError").isBool true then "tool_failure" else "succeeded"

/-- The result of a terminal job, stored, or the one that another client stored first. -/
def completeTask (record : TaskRecord φ) (state : JobState) :
    TaskProgram φ (Fields (Number φ)) := do
  let final ← terminalCompletedResult record
  let completed := { record.projection with completedResult := some final }
  require completed.isValid .validation
  match ← Queue.updateMcpTaskProjection record.taskId completed record.updatedAt (some state) with
  | .ok _ => pure final
  | .error e =>
    if e.isConflict then do
      let updated ← Queue.getMcpTask record.taskId
      match updated.projection.completedResult with
      | none => Proc.raise e
      | some stored => pure stored
    else Proc.raise e

/-- The status of a task whose job is asked for. -/
def jobTaskStatus (record : TaskRecord φ) : TaskProgram φ (GetTaskResult φ) := do
  let job ← jobStatus record
  if job.state = .canceled then
    let (status, _) ← Proc.ofExcept (relayStateProjection job.state.value)
    pure { commonResult record status with
           statusMessage := job.lastError, lastUpdatedAt := job.updatedAt }
  else if !job.state.terminal then
    let (status, _) ← Proc.ofExcept (relayStateProjection job.state.value)
    pure { commonResult record status with
           statusMessage := job.phaseMessage, lastUpdatedAt := job.updatedAt }
  else
    let final ← completeTask record job.state
    let (status, _) ← Proc.ofExcept (relayStateProjection (resultObservation final))
    pure { commonResult record status with
           result := some final, statusMessage := some s!"Relay job {job.state.value}",
           lastUpdatedAt := job.updatedAt }

/-- `task_status`. -/
def taskStatus (record : TaskRecord φ) : TaskProgram φ (GetTaskResult φ) :=
  match record.projection.protocolError with
  | some error => do
    let (status, _) ← Proc.ofExcept (relayStateProjection "protocol_error")
    pure { commonResult record status with error := some error }
  | none =>
    if record.projection.isWaiting then do
      let (status, _) ← Proc.ofExcept (relayStateProjection "durable_input_round")
      pure { commonResult record status with
             inputRequests := record.projection.inputRound.map InputRound.outstanding }
    else match record.projection.completedResult with
      | some result => do
        let (status, _) ← Proc.ofExcept (relayStateProjection (resultObservation result))
        pure { commonResult record status with result := some result }
      | none => jobTaskStatus record

/-! ### Answers -/

/-- The answers as `ElicitResult` reads them. -/
def typedResponses (answered : JsonDict (Number φ)) :
    Except TaskError (List (String × Option (ElicitResult φ))) :=
  answered.fields.mapM fun entry =>
    match McpTypes.elicitResult entry.2 with
    | some response => .ok (entry.1, some response)
    | none => .error .validation

/-- `_resume_agent_input`. -/
def resumeAgentInput (taskId : DurableRecordId) (round : InputRound φ) :
    Except TaskError (InputRound φ) := do
  let responses ← typedResponses round.answered
  match ← postAdmissionAgentInputGuard
      { inputResponses := some responses, requestState := round.requestState } taskId with
  | .inputRequired _ _ =>
    .error (.value "post-admission agent input did not consume its answer")
  | .response _ =>
    let resumed := { round with leg := round.leg + 1, requestState := none }
    ensure resumed.isValid .validation
    pure resumed

/-- The round with the answers to what it asks for. -/
def InputRound.answer (round : InputRound φ) (matched : JsonDict (Number φ)) : InputRound φ :=
  { round with
    outstanding := round.outstanding.filter fun entry =>
      !(matched.fields.map Prod.fst).contains entry.1
    answered := round.answered.merge matched }

/-- The round of a record with the matching answers, resumed when it asks for nothing more. -/
def answeredRound (record : TaskRecord φ) (round : InputRound φ) (matched : JsonDict (Number φ)) :
    Except TaskError (InputRound φ) := do
  let updated := round.answer matched
  ensure updated.isValid .validation
  if updated.outstanding.isEmpty && round.leg = 1 && round.requestState.isSome &&
      agentInputEnabled record.projection.toolName record.projection.arguments then
    resumeAgentInput record.taskId updated
  else pure updated

/-- The attempts of `update_task` from a candidate on, for the task `taskId`. -/
def updateAttempts (taskId : DurableRecordId) (responses : JsonDict (Number φ)) :
    Nat → TaskRecord φ → TaskProgram φ Unit
  | 0, _ => Proc.raise (.conflict
    s!"MCP task input could not converge after concurrent updates: {taskId}")
  | attempts + 1, candidate =>
    match candidate.projection.inputRound with
    | none => pure ()
    | some current =>
      let matched := responses.restrict current.asked.contains
      if current.outstanding.isEmpty || matched.fields.isEmpty then pure ()
      else do
        let round ← Proc.ofExcept (answeredRound candidate current matched)
        let projection := { candidate.projection with inputRound := some round }
        require projection.isValid .validation
        match ← Queue.updateMcpTaskProjection candidate.taskId projection candidate.updatedAt none with
        | .ok _ => pure ()
        | .error e =>
          if e.isConflict then do
            let newer ← Queue.getMcpTask candidate.taskId
            updateAttempts taskId responses attempts newer
          else Proc.raise e

/-- `update_task`. -/
def updateTask (record : TaskRecord φ) (responses : JsonDict (Number φ)) : TaskProgram φ Unit :=
  updateAttempts record.taskId responses 8 record

end

end ClioQueue.McpTasks
