/-
# The durable records of MCP tasks

`queue_tasks.py`: `put_mcp_task` creates the record of a task or replays it, and refuses another
call under the same identity; `update_mcp_task_projection` replaces the projection of a record that
was last updated when the caller says; `get_mcp_task` reads a record.  Each runs under the queue's
lock, so that it is one step.
-/

import ClioQueue.Durable.Results
import ClioQueue.McpTasks.TaskProjection
import Mathlib.Logic.Function.Basic

namespace ClioQueue.McpTasks

open Durable Wire

variable {φ : Type}

/-- What the operations of the queue and of the runtime raise: `ValueError`, pydantic's
`ValidationError`, `QueueConflictError` and its two subtypes, `NotFoundError`, and what code outside
of them raises. -/
inductive TaskError where
  | value (message : String)
  | validation
  | conflict (message : String)
  | identityConflict (message : String)
  | parkConflict (message : String)
  | notFound (message : String)
  | other (message : String)
deriving DecidableEq, Repr

/-- `isinstance(exc, QueueConflictError)`. -/
def TaskError.isConflict : TaskError → Bool
  | .conflict _ | .identityConflict _ | .parkConflict _ => true
  | .value _ | .validation | .notFound _ | .other _ => false

/-- Go on under a condition. -/
def ensure (condition : Bool) (e : TaskError) : Except TaskError Unit :=
  if condition then .ok () else .error e

/-- The directory `mcp_tasks`. -/
abbrev Tasks (φ : Type) : Type := DurableRecordId → Option (TaskRecord φ)

/-- The directory with one record written. -/
def Tasks.write (tasks : Tasks φ) (record : TaskRecord φ) : Tasks φ :=
  Function.update tasks record.taskId (some record)

/-- `VIRTUAL_REMOTE_MCP_RELAY_CONTROL_FIELDS`. -/
def relayControlFields : List String :=
  ["idempotency_key", "wait_for_terminal", "wait_timeout_seconds", "poll_seconds", "include_logs",
    "log_limit"]

/-- `_canonical_mcp_task_arguments`. -/
def canonicalMcpTaskArguments (arguments : Fields (Number φ)) : Fields (Number φ) :=
  arguments.filter fun entry => !relayControlFields.contains entry.1

/-- `route_fields`. -/
def routeFields : List String := ["remote", "cluster", "route_revision"]

section

variable [PyFloat φ]

/-- Two projections are of the same call. -/
def sameCall (persisted requested : TaskProjection φ) : Bool :=
  persisted.toolName = requested.toolName && persisted.profile = requested.profile &&
    Value.plain (.dict (canonicalMcpTaskArguments persisted.arguments)) =
      Value.plain (.dict (canonicalMcpTaskArguments requested.arguments)) &&
    persisted.catalogRevision = requested.catalogRevision &&
    routeFields.all fun field =>
      (persisted.initialResult.get field).plain = (requested.initialResult.get field).plain

/-- The write of a record of `mcp_tasks`, if its indented JSON fits the limit of the family. -/
def writeMcpTask (fits : TaskRecord φ → Bool) (storageRoot : String) (tasks : Tasks φ)
    (task : TaskRecord φ) : Except TaskError (TaskRecord φ × Tasks φ) := do
  ensure (fits task) (.conflict ("mcp_tasks record exceeds the 1048576-byte limit: " ++
    s!"{storageRoot}/mcp_tasks/{task.taskId}.json"))
  pure (task, tasks.write task)

/-- `put_mcp_task`. -/
def putMcpTask (fits : TaskRecord φ → Bool) (storageRoot : String) (tasks : Tasks φ)
    (task : TaskRecord φ) : Except TaskError (TaskRecord φ × Tasks φ) := do
  ensure task.isValid .validation
  match tasks task.taskId with
  | some existing =>
    ensure (existing.taskId = task.taskId && existing.jobId = task.jobId &&
        sameCall existing.projection task.projection)
      (.identityConflict s!"MCP task identity was reused with different semantics: {task.taskId}")
    pure (existing, tasks)
  | none => writeMcpTask fits storageRoot tasks task

/-- A record with another projection. -/
def TaskRecord.updated (task : TaskRecord φ) (projection : TaskProjection φ)
    (state : Option JobState) (now : Int) : TaskRecord φ :=
  { task with updatedAt := now, projection := projection, state := state.getD task.state }

/-- `update_mcp_task_projection` at the time `now`. -/
def updateMcpTaskProjection (fits : TaskRecord φ → Bool) (storageRoot : String) (tasks : Tasks φ)
    (taskId : DurableRecordId) (projection : TaskProjection φ) (expectedUpdatedAt : Option Int)
    (state : Option JobState) (now : Int) : Except TaskError (TaskRecord φ × Tasks φ) := do
  ensure projection.isValid .validation
  match tasks taskId with
  | none => .error (.notFound s!"MCP task not found: {taskId}")
  | some task =>
    ensure (task.taskId = taskId && task.jobId = taskId) (.conflict
        s!"canonical MCP task identity mismatch: {storageRoot}/mcp_tasks/{taskId}.json")
    ensure (expectedUpdatedAt.all (task.updatedAt = ·))
      (.conflict s!"MCP task changed during update: {taskId}")
    let updated := task.updated projection state now
    ensure updated.isValid .validation
    writeMcpTask fits storageRoot tasks updated

/-- `get_mcp_task`. -/
def getMcpTask (tasks : Tasks φ) (taskId : DurableRecordId) : Except TaskError (TaskRecord φ) :=
  match tasks taskId with
  | none => .error (.notFound s!"MCP task not found: {taskId}")
  | some task => do
    ensure (task.taskId = taskId && task.jobId = taskId)
      (.conflict s!"canonical MCP task identity mismatch: {taskId}")
    pure task

/-! ### What each operation returns -/

variable {tasks tasks' : Tasks φ} {task record : TaskRecord φ} {taskId : DurableRecordId}
  {projection : TaskProjection φ}
  {condition : Bool} {now : Int} {state : Option JobState} {storageRoot : String}
  {fits : TaskRecord φ → Bool}
  {e : TaskError}

@[simp]
theorem ensure_eq_ok {u : Unit} : ensure condition e = .ok u ↔ condition = true := by
  cases condition <;> simp [ensure]

omit [PyFloat φ] in
theorem writeMcpTask_eq_ok : writeMcpTask fits storageRoot tasks task = .ok (record, tasks') ↔
    fits task = true ∧ record = task ∧ tasks' = tasks.write task := by
  simp only [writeMcpTask, bind_eq_ok, ensure_eq_ok, exists_const, pure_eq_ok, Prod.mk.injEq,
    eq_comm (b := record), eq_comm (b := tasks')]

/-- A record is created, or the one of the same call is returned. -/
theorem putMcpTask_eq_ok :
    putMcpTask fits storageRoot tasks task = .ok (record, tasks') ↔ task.isValid = true ∧
    ((tasks task.taskId = none ∧ fits task = true ∧ record = task ∧ tasks' = tasks.write task) ∨
      (tasks task.taskId = some record ∧ record.taskId = task.taskId ∧ record.jobId = task.jobId ∧
        sameCall record.projection task.projection = true ∧ tasks' = tasks)) := by
  simp only [putMcpTask, bind_eq_ok, ensure_eq_ok, exists_const]
  refine and_congr_right fun _ => ?_
  rcases htask : tasks task.taskId with _ | _
  · simp only [writeMcpTask_eq_ok, true_and, reduceCtorEq, false_and, or_false]
  · simp only [bind_eq_ok, ensure_eq_ok, exists_const, pure_eq_ok, Prod.mk.injEq,
      Bool.and_eq_true, decide_eq_true_eq, reduceCtorEq, false_and, false_or, Option.some.injEq]
    constructor
    · rintro ⟨⟨⟨htid, hj⟩, hsame⟩, rfl, rfl⟩
      exact ⟨rfl, htid, hj, hsame, rfl⟩
    · rintro ⟨rfl, htid, hj, hsame, rfl⟩
      exact ⟨⟨⟨htid, hj⟩, hsame⟩, rfl, rfl⟩

/-- The projection of the stored record is replaced. -/
theorem updateMcpTaskProjection_eq_ok {expectedUpdatedAt : Option Int} :
    updateMcpTaskProjection fits storageRoot tasks taskId projection expectedUpdatedAt state now =
      .ok (record, tasks') ↔
    projection.isValid = true ∧ ∃ stored, tasks taskId = some stored ∧ stored.taskId = taskId ∧
      stored.jobId = taskId ∧ (∀ expected ∈ expectedUpdatedAt, stored.updatedAt = expected) ∧
      record = stored.updated projection state now ∧ fits record = true ∧
      tasks' = tasks.write record := by
  simp only [updateMcpTaskProjection, bind_eq_ok, ensure_eq_ok, exists_const]
  refine and_congr_right fun hval => ?_
  rcases tasks taskId with _ | stored
  · simp
  · simp only [bind_eq_ok, ensure_eq_ok, exists_const, writeMcpTask_eq_ok,
      Bool.and_eq_true, decide_eq_true_eq, Option.some.injEq, Option.all_eq_true]
    constructor
    · rintro ⟨⟨htid, hj⟩, hexp, -, hfits, rfl, rfl⟩
      exact ⟨stored, rfl, htid, hj, hexp, rfl, hfits, rfl⟩
    · rintro ⟨_, rfl, htid, hj, hexp, rfl, hfits, rfl⟩
      refine ⟨⟨htid, hj⟩, hexp, ?_, hfits, rfl, rfl⟩
      simp only [TaskRecord.isValid, TaskRecord.updated, hval, htid, hj, decide_true, Bool.and_self]

/-- Under the stamp of the stored record its projection is replaced. -/
theorem updateMcpTaskProjection_stored (hstored : tasks record.taskId = some record)
    (hj : record.jobId = record.taskId) (hval : projection.isValid = true)
    (hfits : fits (record.updated projection state now) = true) :
    updateMcpTaskProjection fits storageRoot tasks record.taskId projection (some record.updatedAt)
        state now =
      .ok (record.updated projection state now,
        tasks.write (record.updated projection state now)) :=
  updateMcpTaskProjection_eq_ok.2
    ⟨hval, record, hstored, rfl, hj, fun _ h => Option.mem_some.1 h, rfl, hfits, rfl⟩

omit [PyFloat φ] in
theorem getMcpTask_eq_ok : getMcpTask tasks taskId = .ok record ↔
    tasks taskId = some record ∧ record.taskId = taskId ∧ record.jobId = taskId := by
  unfold getMcpTask
  rcases tasks taskId with _ | _
  · simp
  · simp only [bind_eq_ok, ensure_eq_ok, exists_const, pure_eq_ok, Bool.and_eq_true,
      decide_eq_true_eq, Option.some.injEq]
    constructor
    · rintro ⟨⟨htid, hj⟩, rfl⟩
      exact ⟨rfl, htid, hj⟩
    · rintro ⟨rfl, htid, hj⟩
      exact ⟨⟨htid, hj⟩, rfl⟩

end

end ClioQueue.McpTasks
