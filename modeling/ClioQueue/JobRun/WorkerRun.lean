/-
# A worker's run of a job

`_run_job_impl` dispatches a `jarvis_run`, watches the execution if it is deferred, settles the
intent of the dispatch from the answer, and ends the job with the outcome.  `_run_job` acknowledges
the cleanup of the task, and what is raised is recorded as the failure of the job.  After a restart
`_reconcile_pending_execution_cleanup` closes what a stopped worker has left.

All three are programs over what is stored of one job: the job, the task of its last attempt, and
`mcp-result.json`.  What JARVIS answers, what fails and when the job is canceled are parameters.
-/

import ClioQueue.Durable.Program
import ClioQueue.JobRun.ExecutionWatch
import ClioQueue.Records

namespace ClioQueue.JobRun

open Durable Durable.Prog Wire Jarvis Recovery

variable {φ : Type}

/-! ### What is stored -/

/-- `mcp-result.json`: a trusted answer, an attributed refusal, or neither. -/
inductive ResultFile (φ : Type) where
  | absent
  | record (answer : RunAnswer φ)
  | refusal (refusal : Refusal)
  | other

/-- Where the intent of a dispatch stands (`Recovery.Stage`). -/
inductive IntentStage where
  | prepared | started | resolved | refused
deriving DecidableEq, Repr

/-- The task of an attempt: its state, its intent, its cleanup marker, and the record that was
read for it last. -/
structure StoredTask (φ : Type) where
  state : JobState
  intent : Option IntentStage
  pending : Bool
  lastRead : Option (RunAnswer φ)

/-- Who wrote the final state of a job, as its message says. -/
inductive Report where
  | outcome | recovered | refused | notReleased | workerFailed | exhausted | canceled
deriving DecidableEq, Repr

/-- A job, the task of its last attempt, and the result of the dispatch. -/
structure Run (φ : Type) where
  job : JobState
  report : Option Report
  task : Option (StoredTask φ)
  result : ResultFile φ

/-- What is stored of a job: its run, and whether its cancellation is requested. -/
structure Stored (φ : Type) where
  run : Run φ
  cancellationRequested : Bool

/-- What is raised: `SchedulerSubmissionUnresolvedError`, or another exception. -/
inductive Fault where
  | unresolved (message : String)
  | failed (message : String)
deriving DecidableEq, Repr

/-- A program over what is stored of a job. -/
abbrev JobProg (φ α : Type) : Type := Prog (Stored φ) Unit Fault α

namespace Run

/-- The intent of the task. -/
def intent (run : Run φ) : Option IntentStage := run.task.bind StoredTask.intent

/-- The task has a cleanup marker. -/
def pending (run : Run φ) : Bool := run.task.any StoredTask.pending

/-- The task is not terminal. -/
def taskOpen (run : Run φ) : Bool := run.task.any fun task => !task.state.terminal

/-- The record that was read for the task last. -/
def lastRead (run : Run φ) : Option (RunAnswer φ) := run.task.bind StoredTask.lastRead

/-- A change of the task. -/
def withTask (run : Run φ) (change : StoredTask φ → StoredTask φ) : Run φ :=
  { run with task := run.task.map change }

/-- A record is read. -/
def reading (answer : RunAnswer φ) (run : Run φ) : Run φ :=
  run.withTask fun task => { task with lastRead := some answer }

/-- The intent moves on. -/
def moving (stage : IntentStage) (run : Run φ) : Run φ :=
  run.withTask fun task => { task with intent := some stage }

/-- The job ends. -/
def ending (state : JobState) (report : Report) (run : Run φ) : Run φ :=
  { run with job := state, report := some report }

end Run

/-- `cancel_job_if_active`. -/
def cancelJobIfActive (s : Stored φ) : Stored φ :=
  if s.run.job.terminal then s
  else if s.run.job = .queued then ⟨s.run.ending .canceled .canceled, true⟩
  else { s with cancellationRequested := true }

/-! ### Places where others act, and things fail -/

/-- The places between the writes of a program. -/
inductive Stage where
  | start | setup | launch | stream | watched | ingest | persist | ownership | provenance
  | taskWritten | cleanup | terminate | submission | sidecars | finalize | taskClosed
deriving DecidableEq, Repr

/-- Where a cancellation is requested, and where something fails. -/
structure Surroundings where
  cancels : Stage → Bool
  faults : Stage → Option Fault

/-- Others may ask to cancel the job. -/
def mayCancel (surroundings : Surroundings) (stage : Stage) : JobProg φ Unit :=
  if surroundings.cancels stage then Prog.durably cancelJobIfActive else pure ()

/-- Something may fail. -/
def mayFail (surroundings : Surroundings) (stage : Stage) : JobProg φ Unit :=
  match surroundings.faults stage with
  | some fault => raise fault
  | none => pure ()

/-- A program reaches a place. -/
def reach (surroundings : Surroundings) (stage : Stage) : JobProg φ Unit := do
  mayCancel surroundings stage
  mayFail surroundings stage

/-! ### The queue -/

/-- One write of the run. -/
def onRun (change : Run φ → Run φ) : JobProg φ Unit :=
  Prog.durably fun s => { s with run := change s.run }

/-- `update_task_state`. -/
def updateTaskState (state : JobState) : JobProg φ Unit :=
  onRun fun run => run.withTask fun task => { task with state := state }

/-- `update_job_state`, to a final state. -/
def endJob (state : JobState) (report : Report) : JobProg φ Unit := do
  let job ← look fun s => s.run.job
  require (!job.terminal || job = state) (.failed "cannot change terminal job")
  onRun (Run.ending state report)

/-- `acknowledge_job_cancellation`. -/
def acknowledgeJobCancellation : JobProg φ Unit := do
  let s ← look id
  if s.run.job = .canceled then pure ()
  else do
    require (!s.run.job.terminal) (.failed "cannot acknowledge cancellation for terminal job")
    require s.cancellationRequested (.failed "job has no durable cancellation request")
    onRun (Run.ending .canceled .canceled)

/-- `register_execution_cleanup`: the marker is written before the task. -/
def registerExecutionCleanup : JobProg φ Unit := do
  onRun fun run => run.withTask fun task => { task with pending := true }
  onRun (Run.moving .prepared)

/-- `acknowledge_execution_cleanup`. -/
def acknowledgeExecutionCleanup : JobProg φ Unit :=
  onRun fun run => run.withTask fun task => { task with pending := false }

/-! ### The dispatch and its watch -/

/-- What happens to one run of a job. -/
structure JobAnswers (φ : Type) extends Surroundings where
  dispatched : Option (ResultFile φ)
  returncode : Int
  polls : List (Except Fault (RunAnswer φ))
  lastPoll : Except Fault (RunAnswer φ)
  recovery : Except Fault (RunAnswer φ)
  outputsMissing : Option (Fields (Number φ))

/-- `dispatch_execution_watch_query`. -/
def watchQuery (deferred : ExecutionIdentity) (answer : Except Fault (RunAnswer φ)) :
    JobProg φ (RunAnswer φ) := do
  let answer ← ofExcept answer
  require (answer.identity = deferred)
    (.failed "jarvis execution watch query returned an unexpected execution identity")
  onRun (Run.reading answer)
  pure answer

/-- The loop of `run_execution_watch`: it ends with a terminal record, or at the ceiling. -/
def pollUntilEnded (deferred : ExecutionIdentity) :
    List (Except Fault (RunAnswer φ)) → JobProg φ Unit
  | [] => raise (.failed "execution did not reach terminal within the ceiling")
  | poll :: polls => do
    let answer ← watchQuery deferred poll
    if answer.Ended then pure () else pollUntilEnded deferred polls

/-- `run_execution_watch`. -/
def runExecutionWatch (answers : JobAnswers φ) (deferred : ExecutionIdentity) :
    JobProg φ ExecutionWatchResolution := do
  pollUntilEnded deferred answers.polls
  let final ← watchQuery deferred answers.lastPoll
  require (decide final.Ended)
    (.failed "deferred jarvis_run execution watch observed a non-terminal record")
  onRun fun run => { run with result := .record final }
  reach answers.toSurroundings .watched
  pure (watchResolution final)

/-- `_watch_deferred_jarvis_execution`. -/
def watchDeferredJarvisExecution (answers : JobAnswers φ) :
    JobProg φ (Option ExecutionWatchResolution) := do
  match ← look fun s => s.run.result with
  | .record answer => do
    onRun (Run.reading answer)
    match deferredJarvisExecution answer with
    | none => pure none
    | some deferred => some <$> runExecutionWatch answers deferred
  | _ => pure none

/-! ### The intent -/

/-- `McpRuntimeIngestOutcome`. -/
structure IngestOutcome where
  ingested : Bool
  refusal : Option Refusal

/-- The intent of a started dispatch is settled. -/
def settleIntent (stage : IntentStage) : JobProg φ Unit := do
  let intent ← look fun s => s.run.intent
  require (intent = some .started)
    (.failed "JARVIS execution recovery resolution did not match its intent")
  onRun (Run.moving stage)

/-- `_ingest_mcp_runtime_metadata`. -/
def ingestMcpRuntimeMetadata (surroundings : Surroundings) (expected : ExecutionIdentity) :
    JobProg φ IngestOutcome := do
  match ← look fun s => s.run.result with
  | .record answer => do
    require (answer.identity = expected)
      (.failed "native JARVIS identity did not match the durable MCP request")
    onRun (Run.reading answer)
    reach surroundings .persist
    settleIntent .resolved
    pure ⟨true, none⟩
  | .refusal refusal => pure ⟨false, some refusal⟩
  | _ => pure ⟨false, none⟩

/-- `_recover_jarvis_execution`, with an answer that is trusted or what was raised. -/
def recoverJarvisExecution (expected : ExecutionIdentity)
    (recovery : Except Fault (RunAnswer φ)) : JobProg φ Bool := do
  match ← look fun s => s.run.intent with
  | none => pure false
  | some .prepared => raise (.failed "JARVIS recovery attempted before dispatch started")
  | some .started => do
    let answer ← ofExcept recovery
    require (answer.identity = expected)
      (.unresolved "artifact-pinned JARVIS execution recovery identity did not match")
    onRun (Run.reading answer)
    onRun fun run => { run with result := .record answer }
    settleIntent .resolved
    pure true
  | some _ => pure true

/-- The part of `_run_job_impl` that settles a dispatch without an ingested answer: whether the
execution was recovered. -/
def settleDispatch (answers : JobAnswers φ) (expected : ExecutionIdentity)
    (outcome : IngestOutcome) : JobProg φ Bool :=
  if outcome.ingested then pure false
  else if outcome.refusal.isSome then do
    settleIntent .refused
    pure false
  else recoverJarvisExecution expected answers.recovery

/-! ### The job -/

/-- The end of `_run_job_impl`. -/
def finishJob (surroundings : Surroundings) (outcome : ExecutionOutcome φ) : JobProg φ Unit := do
  reach surroundings .provenance
  if outcome.cancellationHonored then do
    updateTaskState .canceled
    reach surroundings .taskWritten
    acknowledgeJobCancellation
  else if outcome.effectiveReturncode = 0 then do
    updateTaskState .succeeded
    reach surroundings .taskWritten
    endJob .succeeded .outcome
  else do
    updateTaskState .failed
    reach surroundings .taskWritten
    endJob .failed .outcome

/-- `_append_execution_start`, and what the runner writes until it exits. -/
def runDispatch (answers : JobAnswers φ) : JobProg φ Unit := do
  onRun (Run.moving .started)
  onRun fun run => { run with result := answers.dispatched.getD run.result }
  reach answers.toSurroundings .stream

/-- The part of `_run_job_impl` after the dispatch. -/
def concludeDispatch (answers : JobAnswers φ) (expected : ExecutionIdentity) :
    JobProg φ Unit := do
  let resolution ← watchDeferredJarvisExecution answers
  reach answers.toSurroundings .ingest
  let ingest ← ingestMcpRuntimeMetadata answers.toSurroundings expected
  let recovered ← settleDispatch answers expected ingest
  reach answers.toSurroundings .ownership
  let canceled ← look Stored.cancellationRequested
  finishJob answers.toSurroundings (resolveExecutionOutcome recovered resolution
    ingest.refusal.isSome answers.returncode canceled answers.outputsMissing)

/-- `_reconcile_canceled_execution`. -/
def reconcileCanceledExecution (surroundings : Surroundings) : JobProg φ Unit := do
  if ← look fun s => s.run.taskOpen then do
    reach surroundings .terminate
    updateTaskState .canceled
    acknowledgeExecutionCleanup
  else pure ()

/-- `_run_job_impl`. -/
def runJobImpl (expected : ExecutionIdentity) (answers : JobAnswers φ) : JobProg φ Unit := do
  reach answers.toSurroundings .start
  if ← look Stored.cancellationRequested then do
    reconcileCanceledExecution answers.toSurroundings
    acknowledgeJobCancellation
  else do
    onRun fun run => { run with job := .running }
    onRun fun run => { run with task := some ⟨.running, none, false, none⟩ }
    reach answers.toSurroundings .setup
    registerExecutionCleanup
    reach answers.toSurroundings .launch
    runDispatch answers
    concludeDispatch answers expected

/-- Run a program and return how it ends. -/
def attempt {α : Type} (m : JobProg φ α) : JobProg φ (Except Fault α) :=
  Prog.handle (fun fault => .ok (.error fault)) (Except.ok <$> m)

/-- The part of `_run_job` about the sidecars. -/
def cleanUp (surroundings : Surroundings) : JobProg φ Unit := do
  if ← look fun s => s.run.pending then do
    reach surroundings .cleanup
    acknowledgeExecutionCleanup
  else pure ()

/-- `_run_job`: the cleanup is acknowledged, unless ownership is unresolved. -/
def runJob (expected : ExecutionIdentity) (answers : JobAnswers φ) : JobProg φ Unit := do
  match ← attempt (runJobImpl expected answers) with
  | .error (.unresolved message) => raise (.unresolved message)
  | ended => do
    cleanUp answers.toSurroundings
    ofExcept ended

/-- A task that is not terminal is closed. -/
def closeTask (state : JobState) : JobProg φ Unit := do
  if ← look fun s => s.run.taskOpen then updateTaskState state else pure ()

/-- `_jarvis_execution_recovery_is_pending`, of a fault that may leave it so. -/
def recoveryDeferred (fault : Fault) (run : Run φ) : Bool :=
  match fault with
  | .unresolved _ => run.intent = some .prepared || run.intent = some .started
  | .failed _ => false

/-- `_record_unhandled_job_failure`. -/
def recordUnhandledJobFailure (fault : Fault) : JobProg φ Unit := do
  let run ← look Stored.run
  if run.job = .canceled || recoveryDeferred fault run then pure ()
  else do
    closeTask .failed
    endJob .failed .workerFailed

/-- `run_once`, with a job that it has acquired. -/
def runOnce (expected : ExecutionIdentity) (answers : JobAnswers φ) : JobProg φ Unit := do
  match ← attempt (runJob expected answers) with
  | .ok () => pure ()
  | .error fault => recordUnhandledJobFailure fault

/-! ### The pass after a restart -/

/-- What happens to one pass. -/
structure PassAnswers (φ : Type) extends Surroundings where
  recovery : Except Fault (RunAnswer φ)

/-- What a pass makes of the dispatch of a task. -/
inductive Dispatch where
  | unrecorded | notReleased | refused | recovered
deriving DecidableEq, Repr

/-- The part of `_reconcile_pending_execution_cleanup` about the dispatch. -/
def reconcileDispatch (expected : ExecutionIdentity) (answers : PassAnswers φ) :
    JobProg φ Dispatch := do
  let run ← look Stored.run
  match run.intent with
  | none => do
    reach answers.toSurroundings .submission
    pure .unrecorded
  | some .prepared => pure .notReleased
  | some .refused => pure .refused
  | some .started =>
    match run.result with
    | .refusal _ => do
      settleIntent .refused
      pure .refused
    | _ => do
      let _ ← recoverJarvisExecution expected answers.recovery
      pure .recovered
  | some .resolved =>
    -- `_validated_recovered_jarvis_dispatch`
    match run.result with
    | .record answer => do
      require (answer.identity = expected)
        (.unresolved "resolved JARVIS runtime identity did not match its durable intent")
      onRun (Run.reading answer)
      pure .recovered
    | _ => raise (.unresolved "resolved JARVIS result was not trusted")

/-- The state in which a pass closes a task. -/
def closedTaskState (dispatch : Dispatch) (canceled : Bool) : JobState :=
  if dispatch = .recovered && !canceled then .succeeded
  else if canceled then .canceled
  else .failed

/-- The part of a pass about the state of the job. -/
def closeJob (dispatch : Dispatch) (canceled : Bool) : JobProg φ Unit := do
  let job ← look fun s => s.run.job
  if canceled then pure ()
  else
    match dispatch with
    | .recovered => if job = .succeeded then pure () else endJob .succeeded .recovered
    | .refused =>
      if job = .failed || job = .canceled then pure () else endJob .failed .refused
    | .notReleased =>
      if job = .failed || job = .canceled then pure () else endJob .failed .notReleased
    | .unrecorded => pure ()

/-- `_finalize_recovered_jarvis_dispatch`, where there is an answer to index. -/
def finalizeRecovered (surroundings : Surroundings) (dispatch : Dispatch) (canceled : Bool) :
    JobProg φ Unit :=
  if dispatch = .recovered && !canceled then reach surroundings .finalize else pure ()

/-- The last part of a pass: a cancellation that was found is acknowledged. -/
def acknowledgeFound (found : Stored φ) : JobProg φ Unit :=
  if found.cancellationRequested && found.run.job ≠ .canceled then acknowledgeJobCancellation
  else pure ()

/-- The cancellation that a pass finds. -/
def Stored.canceled (found : Stored φ) : Bool :=
  found.run.job = .canceled || found.cancellationRequested

/-- The part of a pass after the dispatch is reconciled. -/
def closeFound (surroundings : Surroundings) (found : Stored φ) (dispatch : Dispatch) :
    JobProg φ Unit := do
  reach surroundings .sidecars
  finalizeRecovered surroundings dispatch found.canceled
  closeTask (closedTaskState dispatch found.canceled)
  reach surroundings .taskClosed
  closeJob dispatch found.canceled
  acknowledgeExecutionCleanup
  acknowledgeFound found

/-- The pass over the marker of a job, from what it finds stored. -/
def reconcileFound (expected : ExecutionIdentity) (answers : PassAnswers φ) (found : Stored φ) :
    JobProg φ Unit := do
  reach answers.toSurroundings .terminate
  let dispatch ← reconcileDispatch expected answers
  closeFound answers.toSurroundings found dispatch

/-- `_reconcile_pending_execution_cleanup`, for one marker. -/
def reconcilePendingExecutionCleanup (expected : ExecutionIdentity) (answers : PassAnswers φ) :
    JobProg φ Unit := do
  let found ← look id
  reconcileFound expected answers found

end ClioQueue.JobRun
