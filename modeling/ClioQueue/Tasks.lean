/-
# Task operations

`append_task`, `update_task_state` and `update_task_metadata` of
`clio_relay/queue_tasks.py`.
-/

import ClioQueue.Jobs

namespace ClioQueue

open Durable

section

variable [Platform] [Entropy]

/-- `_next_job_record_sequence_unlocked` of `task_count`. -/
def nextTaskSequence (jobId : DurableRecordId) : Op Nat :=
  nextJobRecordSequence jobId JobIndex.taskCount

/-- What `append_task` does once the journal is replayed. -/
def appendTaskUnlocked (task : RelayTask) : Op RelayTask := do
  let _job ← getJob task.jobId
  let sequence ← nextTaskSequence task.jobId
  let saved : RelayTask := { task with sequence := some sequence }
  writeTask saved
  let _event ← appendEventUnlocked task.jobId "task.queued" s!"Task queued: {task.name}"
    [("task_id", .str task.taskId.value), ("name", .str task.name)]
  pure saved

/-- `append_task`. -/
def appendTask (task : RelayTask) : Op RelayTask := do
  recoverPendingTransitions
  appendTaskUnlocked task

/-- A task that must exist. -/
def getTask (taskId : DurableRecordId) : Op RelayTask := do
  let found ← readTask taskId
  match found with
  | none => Prog.raise (.notFound s!"task not found: {taskId}")
  | some task => pure task

/-- What `update_task_state` does once the journal is replayed. -/
def updateTaskStateUnlocked (taskId : DurableRecordId) (state : JobState)
    (message : Option String) (metadata : Dict) : Op RelayTask := do
  let task ← getTask taskId
  let updatedAt ← utcNow
  let updated : RelayTask := { task with state, updatedAt, metadata := task.metadata.update metadata }
  writeTask updated
  let _event ← appendEventUnlocked updated.jobId s!"task.{state.value}"
    (messageOr message s!"Task {updated.name} {state.value}")
    [("task_id", .str updated.taskId.value), ("name", .str updated.name),
      ("state", .str state.value)]
  pure updated

/-- `update_task_state`. -/
def updateTaskState (taskId : DurableRecordId) (state : JobState) (message : Option String)
    (metadata : Dict) : Op RelayTask := do
  recoverPendingTransitions
  updateTaskStateUnlocked taskId state message metadata

/-- What `update_task_metadata` does once the journal is replayed. -/
def updateTaskMetadataUnlocked (taskId : DurableRecordId) (metadata : Dict) : Op RelayTask := do
  let task ← getTask taskId
  let updatedAt ← utcNow
  let updated : RelayTask := { task with updatedAt, metadata := task.metadata.update metadata }
  writeTask updated
  pure updated

/-- `update_task_metadata`. -/
def updateTaskMetadata (taskId : DurableRecordId) (metadata : Dict) : Op RelayTask := do
  recoverPendingTransitions
  updateTaskMetadataUnlocked taskId metadata

end

end ClioQueue
