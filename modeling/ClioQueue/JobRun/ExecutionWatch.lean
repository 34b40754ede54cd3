/-
# What a watch decides

A `jarvis_run` may answer while its execution is still queued or running.  `execution_watch` then
asks JARVIS until the record is terminal, and the job ends as the run does.

`deferredJarvisExecution` says whether there is anything to watch, `executionWatchSucceeded` what a
terminal record means, and `resolveExecutionOutcome` folds the watch, the exit code of the dispatch
and a request to cancel into one outcome.
-/

import ClioQueue.Jarvis.RuntimeMetadata
import ClioQueue.Recovery.McpRoute

namespace ClioQueue.JobRun

open Wire Jarvis Recovery

variable {φ : Type} {recovered refused : Bool} {returncode : Int}
  {resolution : Option ExecutionWatchResolution}

/-! ### Answers of JARVIS -/

/-- Which execution of which pipeline. -/
structure ExecutionIdentity where
  pipelineId : String
  executionId : String
deriving DecidableEq, Repr

/-- The record of an answer that passed the validation of the runner and of the worker. -/
structure RunAnswer (φ : Type) where
  record : ExecutionRecord φ
  lifecycle : Jarvis.Lifecycle record.state record.terminal

namespace RunAnswer

/-- The execution that an answer is about. -/
def identity (answer : RunAnswer φ) : ExecutionIdentity :=
  ⟨answer.record.pipelineId, answer.record.executionId⟩

/-- `runtime_metadata_from_native_documents`, its terminal part. -/
def terminal (answer : RunAnswer φ) : TerminalMetadata where
  state := some answer.record.state.text
  terminal := some answer.record.terminal
  returncode := answer.record.returnCode
  reason := answer.record.error
  startedAt := some answer.record.createdAt
  finishedAt := if answer.record.terminal then some answer.record.updatedAt else none

/-- The execution has ended. -/
def Ended (answer : RunAnswer φ) : Prop := answer.terminal.terminal = some true

/-- The execution has ended, and it completed. -/
structure Completed (answer : RunAnswer φ) : Prop where
  ended : answer.Ended
  state : answer.terminal.state = some "completed"

instance (answer : RunAnswer φ) : Decidable answer.Ended :=
  inferInstanceAs (Decidable (_ = _))

instance (answer : RunAnswer φ) : Decidable answer.Completed :=
  decidable_of_iff (answer.Ended ∧ _ = some "completed") ⟨fun h => ⟨h.1, h.2⟩, fun h => ⟨h.ended, h.state⟩⟩

end RunAnswer

/-! ### The watch -/

/-- `deferred_jarvis_execution`: the execution to watch, if the answer does not end it. -/
def deferredJarvisExecution (answer : RunAnswer φ) : Option ExecutionIdentity :=
  if answer.terminal.terminal ≠ some false then none else some answer.identity

theorem ended_of_not_deferred {answer : RunAnswer φ} (h : deferredJarvisExecution answer = none) :
    answer.Ended := by
  unfold deferredJarvisExecution at h
  split_ifs at h with hterm
  show some answer.record.terminal = some true
  rcases hrec : answer.record.terminal with _ | _
  · exact absurd (congrArg some hrec) hterm
  · rfl

/-- `execution_watch_succeeded`. -/
def executionWatchSucceeded (answer : RunAnswer φ) : Bool :=
  answer.terminal.state == some "completed"

/-- Why a watch resolved to a failure. -/
structure WatchFailure where
  pipelineId : String
  executionId : String
  state : Option String
  returncode : Option Int
  reason : Option String
deriving DecidableEq, Repr

/-- `execution_watch_failure_detail`. -/
def executionWatchFailureDetail (answer : RunAnswer φ) : WatchFailure where
  pipelineId := answer.record.pipelineId
  executionId := answer.record.executionId
  state := answer.terminal.state
  returncode := answer.terminal.returncode
  reason := answer.terminal.reason

/-- `ExecutionWatchResolution`. -/
structure ExecutionWatchResolution where
  succeeded : Bool
  failureDetail : Option WatchFailure
deriving DecidableEq, Repr

/-- What the last query of a watch resolves it to. -/
def watchResolution (answer : RunAnswer φ) : ExecutionWatchResolution where
  succeeded := executionWatchSucceeded answer
  failureDetail :=
    if executionWatchSucceeded answer then none else some (executionWatchFailureDetail answer)

/-! ### The outcome -/

/-- `ExecutionOutcome`. -/
structure ExecutionOutcome (φ : Type) where
  effectiveReturncode : Int
  cancellationHonored : Bool
  watchFailure : Option WatchFailure
  outputsMissing : Option (Fields (Number φ))

/-- The return code of `resolve_execution_outcome`, before missing outputs are looked at. -/
def effectiveReturncode (dispatchRecovered : Bool)
    (watchResolution : Option ExecutionWatchResolution) (dispatchRefusalPresent : Bool)
    (transportReturncode : Int) : Int :=
  if dispatchRecovered then 0
  else
    match watchResolution with
    | some resolution => if resolution.succeeded then 0 else 1
    | none => if dispatchRefusalPresent && transportReturncode == 0 then 1 else transportReturncode

/-- `resolve_execution_outcome`. -/
def resolveExecutionOutcome (dispatchRecovered : Bool)
    (watchResolution : Option ExecutionWatchResolution) (dispatchRefusalPresent : Bool)
    (transportReturncode : Int) (cancellationRequested : Bool)
    (outputsMissing : Option (Fields (Number φ))) : ExecutionOutcome φ where
  effectiveReturncode :=
    if outputsMissing.isSome then 1
    else effectiveReturncode dispatchRecovered watchResolution dispatchRefusalPresent
      transportReturncode
  cancellationHonored :=
    if outputsMissing.isSome then false else watchResolution.isNone && cancellationRequested
  watchFailure := watchResolution.bind ExecutionWatchResolution.failureDetail
  outputsMissing := outputsMissing

/-- A zero effective return code comes from a recovery, from a watch that succeeded, or from the
transport when nothing was watched or refused. -/
theorem effectiveReturncode_zero
    (h : effectiveReturncode recovered resolution refused returncode = 0) :
    recovered = true ∨ (∃ watched, resolution = some watched ∧ watched.succeeded = true) ∨
      (resolution = none ∧ refused = false ∧ returncode = 0) := by
  rcases recovered with _ | _
  · rcases resolution with _ | watched
    · have hdisp : (if refused && returncode == 0 then (1 : Int) else returncode) = 0 := h
      by_cases href : (refused && returncode == 0) = true
      · rw [if_pos href] at hdisp
        exact absurd hdisp one_ne_zero
      · rw [if_neg href] at hdisp
        subst hdisp
        exact .inr (.inr ⟨rfl, by simpa using href, rfl⟩)
    · have hwatched : (if watched.succeeded then (0 : Int) else 1) = 0 := h
      by_cases hsucc : watched.succeeded = true
      · exact .inr (.inl ⟨watched, rfl, hsucc⟩)
      · rw [if_neg hsucc] at hwatched
        exact absurd hwatched one_ne_zero
  · exact .inl rfl

/-- **What an outcome of zero rests on**: a recovered answer, a watch that succeeded, or a dispatch
that exited with zero and was not refused. -/
theorem outcome_zero {canceled : Bool} {missing : Option (Fields (Number φ))}
    (h : (resolveExecutionOutcome recovered resolution refused returncode canceled missing).effectiveReturncode = 0) :
    recovered = true ∨ (∃ watched, resolution = some watched ∧ watched.succeeded = true) ∨
      (resolution = none ∧ refused = false ∧ returncode = 0) := by
  rcases missing with _ | _
  · exact effectiveReturncode_zero h
  · exact absurd (h : (1 : Int) = 0) one_ne_zero

end ClioQueue.JobRun
