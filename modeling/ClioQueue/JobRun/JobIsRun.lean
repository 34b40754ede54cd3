/-
# The job is the run

Runs of a job: workers take it up and stop after any write, passes after a restart close what is
left, and others ask to cancel it.

A job that succeeded should show a record that is terminal and completed.  It does in every run
where a dispatch that exits with zero leaves no record that ended without completing, where the
query for a lost answer finds a completed execution, and where a pass that finds a resolved intent
and no cancellation finds a completed record (`job_is_run`).  Elsewhere it need not: a dispatch
that answers with a failed record and exits with zero makes the job succeed
(`failed_execution_succeeds`).
-/

import ClioQueue.JobRun.WorkerOutcome

namespace ClioQueue.JobRun

open Durable Durable.Prog Wire Jarvis Recovery

variable {φ : Type} {expected : ExecutionIdentity} {run run' : Run φ}

/-! ### The pass -/

/-- A record is read that has ended, and that of a job that succeeded is read again. -/
theorem Sound.reading (h : Sound expected run) {answer : RunAnswer φ} (hended : answer.Ended)
    {stage : IntentStage} (hintent : run.intent = some stage)
    (hsame : run.job = .succeeded → run.result = .record answer) :
    Sound expected (run.reading answer) where
  succeeded hjob := by
    obtain ⟨hresolved, _, hres, -, hident, hcomp⟩ := h.succeeded hjob
    cases hres.symm.trans (hsame hjob)
    exact ⟨(reading_intent answer).trans hresolved, answer, hres,
      reading_lastRead hintent answer, hident, hcomp⟩
  reported _ answer' hans' := by
    cases (reading_lastRead hintent answer).symm.trans hans'
    exact hended
  resolved hresolved := h.resolved ((reading_intent answer).symm.trans hresolved)
  open_unreported := h.open_unreported
  marked hpend := h.marked (by
    rw [← hpend]
    unfold Run.reading Run.withTask Run.pending
    cases run.task <;> rfl)

@[simp]
theorem moving_pending (stage : IntentStage) : (run.moving stage).pending = run.pending := by
  unfold Run.moving Run.withTask Run.pending
  cases run.task <;> rfl

/-- The intent of a job that did not succeed moves on. -/
theorem Sound.moving (h : Sound expected run) {stage : IntentStage}
    (hjob : run.job ≠ .succeeded) (hended : stage = .resolved → ResultEnded run)
    (hintent : (run.moving stage).intent = some stage) : Sound expected (run.moving stage) where
  succeeded hsucc := absurd hsucc hjob
  reported hreports answer hans :=
    h.reported hreports answer ((moving_lastRead stage).symm.trans hans)
  resolved hresolved := hended (Option.some.inj (hintent.symm.trans hresolved))
  open_unreported := h.open_unreported
  marked hpend := h.marked ((moving_pending stage).symm.trans hpend)

/-- `mcp-result.json` of a job that did not succeed is written. -/
theorem Sound.writing (h : Sound expected run) {result : ResultFile φ}
    (hjob : run.job ≠ .succeeded) (hunresolved : run.intent ≠ some .resolved) :
    Sound expected { run with result := result } where
  succeeded hsucc := absurd hsucc hjob
  reported := h.reported
  resolved hresolved := absurd hresolved hunresolved
  open_unreported := h.open_unreported
  marked := h.marked

/-- A job with an intent that is not resolved has not succeeded. -/
theorem Sound.not_succeeded (h : Sound expected run) {stage : IntentStage}
    (hintent : run.intent = some stage) (hstg : stage ≠ .resolved) : run.job ≠ .succeeded := by
  intro hjob
  exact hstg (Option.some.inj (hintent.symm.trans (h.succeeded hjob).intent))

/-- What a pass says of a dispatch. -/
structure PassSays (expected : ExecutionIdentity) (canceled : Bool) (dispatch : Dispatch)
    (run run' : Run φ) : Prop where
  sound : Sound expected run'
  job : run'.job = run.job
  recovered : dispatch = .recovered → canceled = false → ShowsCompleted expected run'

/-- A record of `mcp-result.json`, if there is one, has completed. -/
def CompletedRecord (result : ResultFile φ) : Prop :=
  ∀ answer, result = .record answer → answer.Completed

section Pass

variable {answers : PassAnswers φ} {canceled : Bool}
  {dispatch : Dispatch} {found : Stored φ} {surroundings : Surroundings}

section

variable (h : Sound expected run)

include h

theorem keeps_refuseIntent (hintent : run.intent = some .started) :
    Holds (do settleIntent .refused; pure Dispatch.refused) (Sound expected)
      (fun dispatch run' => PassSays expected canceled dispatch run run')
      (fun _ => Sound expected) run := by
  have hmoved : Sound expected (run.moving .refused) :=
    h.moving (h.not_succeeded hintent (by decide)) (by simp) (moving_intent hintent _)
  refine holds_bind ?_
  unfold settleIntent
  refine holds_lookRun (f := Run.intent) (holds_require (fun _ => ?_) h)
  exact holds_onRun_last hmoved (holds_pure ⟨hmoved, rfl, by simp⟩)

/-- A pass that recovers a lost dispatch shows a completed execution, if only completed executions
are recovered. -/
theorem keeps_recoverLost (hintent : run.intent = some .started)
    (hrecov : RecoversCompleted answers.recovery) :
    Holds (do let _ ← recoverJarvisExecution expected answers.recovery; pure Dispatch.recovered)
      (Sound expected) (fun dispatch run' => PassSays expected canceled dispatch run run')
      (fun _ => Sound expected) run := by
  have hjob := h.not_succeeded hintent (by decide)
  refine holds_bind ?_
  unfold recoverJarvisExecution
  refine holds_lookRun (f := Run.intent) ?_
  rw [hintent]
  refine holds_ofExcept (fun answer hans => ?_) fun _ _ => h
  have hcomp := hrecov answer hans
  refine holds_require (fun hident => ?_) h
  have hread : Sound expected (run.reading answer) :=
    h.reading hcomp.ended hintent fun hsucc => absurd hsucc hjob
  have hstart : (run.reading answer).intent = some .started :=
    (reading_intent answer).trans hintent
  have hwritten : Sound expected { run.reading answer with result := .record answer } :=
    hread.writing hjob fun hresolved => by cases hstart.symm.trans hresolved
  have hended : ResultEnded { run.reading answer with result := .record answer } := by
    intro _ hans'
    cases hans'
    exact hcomp.ended
  have hmoved : Sound expected
      (Run.moving .resolved { run.reading answer with result := .record answer }) :=
    hwritten.moving hjob (fun _ => hended) (moving_intent hstart _)
  refine holds_onRun hread (holds_onRun hwritten (holds_bind ?_))
  unfold settleIntent
  refine holds_lookRun (f := Run.intent) (holds_require (fun _ => ?_) hwritten)
  refine holds_onRun_last hmoved (holds_pure (holds_pure ⟨hmoved, rfl, fun _ _ => ?_⟩))
  refine ⟨moving_intent hstart _, answer, rfl, ?_, of_decide_eq_true hident, hcomp⟩
  exact (moving_lastRead _).trans (reading_lastRead hintent answer)

/-- A pass that reconciles a dispatch reports a recovery only with a completed execution shown,
unless the job is canceled. -/
theorem keeps_reconcileDispatch (hqueued : run.job ≠ .queued)
    (hrecov : RecoversCompleted answers.recovery)
    (hfound : canceled = false → run.intent = some .resolved → CompletedRecord run.result) :
    Holds (reconcileDispatch expected answers) (Sound expected)
      (fun dispatch run' => PassSays expected canceled dispatch run run')
      (fun _ => Sound expected) run := by
  unfold reconcileDispatch
  refine holds_lookRun (f := id) ?_
  dsimp only [id]
  rcases hintent : run.intent with _ | stage
  · refine holds_reach hqueued h ?_ fun _ => h
    exact holds_pure ⟨h, rfl, by simp⟩
  · cases stage with
    | prepared | refused => exact holds_pure ⟨h, rfl, by simp⟩
    | started =>
      cases hres : run.result with
      | refusal => exact keeps_refuseIntent h hintent
      | absent | record answer | other => exact keeps_recoverLost h hintent hrecov
    | resolved =>
      cases hres : run.result with
      | absent | refusal refusal | other => exact holds_raise h
      | record answer =>
        refine holds_require (fun hident => ?_) h
        have hended := h.resolved hintent answer hres
        have hread := h.reading hended hintent fun _ => hres
        refine holds_onRun hread (holds_pure ⟨hread, rfl, fun _ hcan => ?_⟩)
        exact ⟨(reading_intent answer).trans hintent, answer, hres,
          reading_lastRead hintent answer, of_decide_eq_true hident,
          hfound hcan hintent answer hres⟩

theorem keeps_closeJob
    (hrecovered : dispatch = .recovered → canceled = false → ShowsCompleted expected run) :
    Keeps expected (closeJob dispatch canceled) run := by
  unfold closeJob
  refine holds_lookRun (f := Run.job) ?_
  rcases canceled with _ | _
  · rw [if_neg Bool.false_ne_true]
    cases dispatch with
    | unrecorded => exact holds_pure h
    | recovered =>
      have hshows := hrecovered rfl rfl
      dsimp only
      split_ifs
      · exact holds_pure h
      · exact keeps_endJob h rfl (fun _ => hshows) fun _ => hshows.readEnded
    | refused | notReleased =>
      dsimp only
      split_ifs
      · exact holds_pure h
      · exact keeps_endJob h rfl (by simp) (by simp)
  · exact holds_pure h

theorem keeps_finalizeRecovered (hqueued : run.job ≠ .queued) :
    Holds (finalizeRecovered surroundings dispatch canceled) (Sound expected)
      (fun _ run' => run' = run) (fun _ => Sound expected) run := by
  unfold finalizeRecovered
  by_cases hrecovered : (decide (dispatch = .recovered) && !canceled) = true
  · rw [if_pos hrecovered]
    exact holds_reach_last hqueued h rfl fun _ => h
  · rw [if_neg hrecovered]
    exact holds_pure rfl

theorem keeps_acknowledgeFound : Keeps expected (acknowledgeFound found) run := by
  unfold acknowledgeFound
  by_cases hfound : (found.cancellationRequested && decide (found.run.job ≠ .canceled)) = true
  · rw [if_pos hfound]
    exact keeps_acknowledgeJobCancellation h
  · rw [if_neg hfound]
    exact holds_pure h

/-- Closing a job that was found keeps its record sound, if a recovery shows a completed
execution. -/
theorem keeps_closeFound (hqueued : run.job ≠ .queued)
    (hshows : dispatch = .recovered → found.canceled = false → ShowsCompleted expected run) :
    Keeps expected (closeFound surroundings found dispatch) run := by
  unfold closeFound
  refine holds_reach hqueued h ?_ fun _ => h
  refine holds_bind ((keeps_finalizeRecovered h hqueued).mono (fun _ h => h) ?_ fun _ _ h => h)
  rintro ⟨⟩ _ rfl
  refine holds_bind ((keeps_closeTask h).mono (fun _ h => h) ?_ fun _ _ h => h)
  rintro ⟨⟩ closed hclosed
  have hkept : Sound expected closed ∧ closed.job ≠ .queued ∧
      (dispatch = .recovered → found.canceled = false → ShowsCompleted expected closed) := by
    rcases hclosed with rfl | rfl
    · exact ⟨h, hqueued, hshows⟩
    · exact ⟨h.withState _, hqueued, fun hd hc => (hshows hd hc).withState _⟩
  obtain ⟨hsound, hqueued', hshows'⟩ := hkept
  refine holds_reach hqueued' hsound ?_ fun _ => hsound
  refine holds_bind ((keeps_closeJob hsound hshows').mono (fun _ h => h) ?_ fun _ _ h => h)
  rintro ⟨⟩ _ hended
  refine holds_bind ((keeps_acknowledgeExecutionCleanup hended).mono (fun _ h => h) ?_
    fun _ _ h => h)
  exact fun _ _ hacknowledged => keeps_acknowledgeFound hacknowledged

/-- Reconciling a dispatch that was found keeps the record of the job sound: it is closed as
recovered only with a completed execution shown. -/
theorem keeps_reconcileFound (hqueued : run.job ≠ .queued)
    (hrecov : RecoversCompleted answers.recovery)
    (hfound : found.canceled = false → run.intent = some .resolved → CompletedRecord run.result) :
    Keeps expected (reconcileFound expected answers found) run := by
  unfold reconcileFound
  refine holds_reach hqueued h ?_ fun _ => h
  refine holds_bind ((keeps_reconcileDispatch h hqueued hrecov hfound).mono (fun _ h => h) ?_
    fun _ _ h => h)
  rintro _ _ ⟨hsound, hjob, hshows⟩
  exact keeps_closeFound hsound (hjob ▸ hqueued) hshows

end

/-- **A pass keeps the invariant**, wherever it stops. -/
theorem pass_keeps {s t : Stored φ} (h : Sound expected s.run) (hpend : s.run.pending = true)
    (hrecov : RecoversCompleted answers.recovery)
    (hfound : s.canceled = false → s.run.intent = some .resolved → CompletedRecord s.run.result)
    (ht : t ∈ (reconcilePendingExecutionCleanup expected answers).halts s ()) :
    Sound expected t.run := by
  have hpass := keeps_reconcileFound h (h.marked hpend) hrecov hfound s.cancellationRequested
  refine wp_halts (I := fun t => Sound expected t.run) ?_ h t ht
  unfold reconcilePendingExecutionCleanup
  rw [wp_bind, wp_look]
  exact hpass

end Pass

/-! ### Runs -/

/-- What happens to a job. -/
inductive Event (φ : Type) where
  | cancel
  | lease
  | requeue
  | exhaust
  | work (answers : JobAnswers φ)
  | pass (answers : PassAnswers φ)

/-- What an event makes of a job.  A queue gives a job to a worker, and takes it back from a worker
that has stopped, only where no cleanup is pending; a worker or a pass may stop after any write. -/
inductive Step (expected : ExecutionIdentity) : Event φ → Stored φ → Stored φ → Prop where
  | cancel {s : Stored φ} : Step expected .cancel s (cancelJobIfActive s)
  | lease {s : Stored φ} (queued : s.run.job = .queued) (unmarked : s.run.pending = false) :
      Step expected .lease s { s with run := { s.run with job := .leased } }
  | requeue {s : Stored φ} (held : s.run.job.held = true) (unmarked : s.run.pending = false) :
      Step expected .requeue s { s with run := { s.run with job := .queued } }
  | exhaust {s : Stored φ} (held : s.run.job.held = true) (unmarked : s.run.pending = false) :
      Step expected .exhaust s { s with run := s.run.ending .failed .exhausted }
  | work {s t : Stored φ} {answers : JobAnswers φ} (leased : s.run.job = .leased)
      (stops : t ∈ (runOnce expected answers).halts s ()) : Step expected (.work answers) s t
  | pass {s t : Stored φ} {answers : PassAnswers φ} (marked : s.run.pending = true)
      (stops : t ∈ (reconcilePendingExecutionCleanup expected answers).halts s ()) :
      Step expected (.pass answers) s t

/-- A job that was just submitted. -/
def submitted : Stored φ := ⟨⟨.queued, none, none, .absent⟩, false⟩

/-- **The job is the run**: it succeeded only if the record that was read last, which is the one in
`mcp-result.json`, is terminal and completed; and its end is not reported as that of its run while
the execution is queued or running. -/
structure IsItsRun (expected : ExecutionIdentity) (run : Run φ) : Prop where
  succeeded : run.job = .succeeded → ∃ answer, run.result = .record answer ∧
    run.lastRead = some answer ∧ answer.identity = expected ∧ answer.Completed
  failed : ∀ answer, run.lastRead = some answer → answer.Ended → ¬ answer.Completed →
    run.job ≠ .succeeded
  reported : ReportsRun run → ∀ answer, run.lastRead = some answer → answer.Ended

/-- Where the code makes the job what its run is: an exit with zero leaves no record that ended
without completing; a query for a lost answer finds a completed execution; and a pass that finds a
resolved intent, and no cancellation, finds a completed record. -/
def Event.Faithful (s : Stored φ) : Event φ → Prop
  | .work answers =>
    (answers.returncode = 0 → NoFailedRecord (answers.dispatched.getD s.run.result)) ∧
      RecoversCompleted answers.recovery
  | .pass answers => RecoversCompleted answers.recovery ∧
    (s.canceled = false → s.run.intent = some .resolved → CompletedRecord s.run.result)
  | _ => True

theorem sound_submitted : Sound expected (submitted : Stored φ).run where
  succeeded hjob := by cases hjob
  reported hreports := by rcases hreports with h | h <;> cases h
  resolved hresolved := by cases hresolved
  open_unreported _ := rfl
  marked hpend := by cases hpend

/-- A job that has not succeeded moves on in the queue. -/
theorem Sound.queueing (h : Sound expected run) {state : JobState}
    (hopen : run.job.terminal = false) (hst : state.terminal = false)
    (hmark : run.pending = false) : Sound expected { run with job := state } where
  succeeded hjob := by
    cases (show state = .succeeded from hjob)
    cases hst
  reported hreports := by
    rw [ReportsRun, h.open_unreported hopen] at hreports
    rcases hreports with hrep | hrep <;> cases hrep
  resolved := h.resolved
  open_unreported _ := h.open_unreported hopen
  marked hpend := absurd (hmark.symm.trans hpend) Bool.false_ne_true

theorem Sound.cancel {s : Stored φ} (h : Sound expected s.run) :
    Sound expected (cancelJobIfActive s).run := by
  by_cases hqueued : s.run.job = .queued
  · have hcan : (cancelJobIfActive s).run = s.run.ending .canceled .canceled := by
      unfold cancelJobIfActive
      rw [if_neg (by simp [hqueued, JobState.terminal]), if_pos hqueued]
    rw [hcan]
    exact h.ending rfl (by simp) (by simp)
  · rw [cancelJobIfActive_run hqueued]
    exact h

/-- **Every faithful step keeps the invariant.** -/
theorem Sound.step {s t : Stored φ} {event : Event φ} (h : Sound expected s.run)
    (hstep : Step expected event s t) (hfaith : event.Faithful s) : Sound expected t.run := by
  cases hstep with
  | cancel => exact h.cancel
  | lease queued unmarked => exact h.queueing (by rw [queued]; rfl) rfl unmarked
  | requeue held unmarked => exact h.queueing (not_terminal_of_held held).1 rfl unmarked
  | exhaust => exact h.ending rfl (by simp) (by simp)
  | work leased stops =>
    have hwork : Working s.run :=
      ⟨by rw [leased]; rfl, h.open_unreported (by rw [leased]; rfl), h.resolved⟩
    exact (runOnce_keeps hwork hfaith.1 hfaith.2).halts h stops
  | pass marked stops => exact pass_keeps h marked hfaith.1 hfaith.2 stops

theorem Sound.isItsRun (h : Sound expected run) : IsItsRun expected run where
  succeeded hjob := (h.succeeded hjob).record
  failed answer hread _ hnot hjob := by
    obtain ⟨_, -, hread', -, hcomp⟩ := (h.succeeded hjob).record
    cases hread.symm.trans hread'
    exact hnot hcomp
  reported := h.reported

/-- **In every run whose steps are all faithful, the job is the run.** -/
theorem job_is_run {t : Stored φ} (h : Relation.ReflTransGen
      (fun s t => ∃ event : Event φ, Step expected event s t ∧ event.Faithful s) submitted t) :
    IsItsRun expected t.run := by
  have hsound : Sound expected t.run := by
    induction h with
    | refl => exact sound_submitted
    | tail _ hstep ih =>
      obtain ⟨event, hstep, hfaith⟩ := hstep
      exact ih.step hstep hfaith
  exact hsound.isItsRun

/-! ### A run that completes, and one that fails -/

/-- An execution. -/
def sampleIdentity : ExecutionIdentity := ⟨"pipe", "exec_1"⟩

/-- The record of an execution that was run directly and has ended. -/
def sampleRecord (state : ExecutionState) (returnCode : Int) : ExecutionRecord Int where
  executionId := "exec_1"
  pipelineId := "pipe"
  pipelineName := "pipe"
  mode := .direct
  schedulerProvider := none
  schedulerNativeId := none
  cluster := none
  state := state
  submitted := false
  terminal := true
  createdAt := "2026-07-01T12:00:00Z"
  updatedAt := "2026-07-01T12:05:00Z"
  returnCode := some returnCode
  error := none
  metadata := []

theorem sampleRecord_lifecycle {state : ExecutionState} (h : state ∈ endedStates)
    (returnCode : Int) : Jarvis.Lifecycle (sampleRecord state returnCode).state
      (sampleRecord state returnCode).terminal := by
  refine ⟨fun _ => ?_, fun _ => rfl⟩
  show state ∈ terminalStates
  exact .tail _ h

/-- An execution that completed. -/
def completedAnswer : RunAnswer Int :=
  ⟨sampleRecord .completed 0, sampleRecord_lifecycle (.head _) 0⟩

/-- An execution that failed. -/
def failedAnswer : RunAnswer Int :=
  ⟨sampleRecord .failed 3, sampleRecord_lifecycle (.tail _ (.head _)) 3⟩

/-- A dispatch that answers, and whose runner exits with zero. -/
def answersWith (answer : RunAnswer Int) : JobAnswers Int where
  cancels _ := false
  faults _ := none
  dispatched := some (.record answer)
  returncode := 0
  polls := []
  lastPoll := .error (.failed "not asked")
  recovery := .error (.failed "not asked")
  outputsMissing := none

/-- A job that a worker has just been given. -/
def leased : Stored Int := ⟨⟨.leased, none, none, .absent⟩, false⟩

/-- What a worker leaves of it. -/
def worked (answer : RunAnswer Int) : Stored Int :=
  ((runOnce sampleIdentity (answersWith answer)).run leased ()).store

theorem leased_step : Step sampleIdentity (.lease : Event Int) submitted leased :=
  .lease rfl rfl

theorem worked_step (answer : RunAnswer Int) :
    Step sampleIdentity (.work (answersWith answer)) leased (worked answer) :=
  .work rfl (List.mem_append_right _ (.head _))

/-- A job whose execution completed. -/
theorem completed_execution_succeeds :
    (worked completedAnswer).run.job = .succeeded ∧
      IsItsRun sampleIdentity (worked completedAnswer).run := by
  refine ⟨rfl, job_is_run (.tail (.tail .refl ⟨.lease, leased_step, trivial⟩)
    ⟨_, worked_step completedAnswer, fun _ answer hans _ => ?_, fun answer hans => ?_⟩)⟩
  · cases hans
    decide
  · cases hans

/-- **A job whose execution failed may succeed**: it does where the dispatch answers at once and
its runner exits with zero. -/
theorem failed_execution_succeeds :
    ¬ ∀ (expected : ExecutionIdentity) (t : Stored Int),
      Relation.ReflTransGen (fun s t => ∃ event : Event Int, Step expected event s t) submitted t →
        IsItsRun expected t.run := by
  intro hall
  have hrun := hall sampleIdentity (worked failedAnswer)
    (.tail (.tail .refl ⟨.lease, leased_step⟩) ⟨_, worked_step failedAnswer⟩)
  have hread : (worked failedAnswer).run.lastRead = some failedAnswer := rfl
  exact hrun.failed failedAnswer hread (by decide) (by decide) rfl

end ClioQueue.JobRun
