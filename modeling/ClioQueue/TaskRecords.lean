/-
# Task records

`_write_task_unlocked` and `_sync_task_derived_unlocked` of
`clio_relay/queue_tasks.py`: a task is written like a job, as an intent, its
canonical record, its per-job copies and scheduler references, and the removal of
the intent.
-/

import ClioQueue.JobRecords

namespace ClioQueue

open Durable

section

variable [Platform] [Entropy]

/-- The source id under which a task names scheduler jobs. -/
def RelayTask.sourceId (task : RelayTask) : String := s!"task:{task.taskId}"

/-- `_sync_task_retention_indexes_unlocked`. -/
def syncTaskRetentionIndexes (task : RelayTask) : Op Unit := do
  (if task.state.terminal then unlink (.activeTask task.jobId task.taskId)
  else putWithin (Platform.taskFits task) (.activeTask task.jobId task.taskId) task)
  syncSchedulerSource task.jobId task.sourceId task.metadata

/-- The ordered record of a task, and the task count it implies. -/
def syncTaskOrder (task : RelayTask) (sequence : Nat) : Op Unit := do
  putWithin (Platform.taskFits task) (.taskOrder task.jobId sequence) task
  let found ← read (.jobIndex task.jobId)
  if found.any fun index => decide (index.taskCount < sequence) then
    updateJobIndex task.jobId fun index => { index with taskCount := sequence }
  else pure ()

/-- `_sync_task_derived_unlocked`. -/
def syncTaskDerived (task : RelayTask) : Op Unit := do
  initializeJobIndex task.jobId
  putWithin (Platform.taskFits task) (.taskByJob task.jobId task.taskId) task
  (match task.sequence with
    | none => pure ()
    | some sequence => syncTaskOrder task sequence)
  syncTaskRetentionIndexes task

/-- `_write_task_unlocked`. -/
def writeTask (task : RelayTask) : Op Unit := do
  writeTransitionIntent (.taskSync task.jobId task.taskId)
  putWithin (Platform.taskFits task) (.task task.taskId) task
  syncTaskDerived task
  unlink (.intent (.taskSync task.taskId))

/-- `read_optional` of a canonical task. -/
def readTask (taskId : DurableRecordId) : Op (Option RelayTask) := do
  let found ← read (.task taskId)
  Prog.require (found.all fun task => task.taskId == taskId)
    (.conflict "canonical task identity mismatch")
  pure found

end

end ClioQueue
