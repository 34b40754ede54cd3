/-
# What a worker keeps of a job

A job that succeeded shows a completed record, which was read last and is the one in
`mcp-result.json`; and a job whose end is reported as that of its run shows a record that has ended
(`Sound`).  Here is what the watch, the ingest and the recovery of a worker leave of them.
-/

import ClioQueue.JobRun.RunRules

namespace ClioQueue.JobRun

open Durable Wire Jarvis Recovery

variable {φ : Type} {expected : ExecutionIdentity}

/-! ### The invariant -/

/-- The intent is resolved; the record that was read last is that of the execution, is in
`mcp-result.json`, and has completed. -/
structure ShowsCompleted (expected : ExecutionIdentity) (run : Run φ) : Prop where
  intent : run.intent = some .resolved
  record : ∃ answer, run.result = .record answer ∧ run.lastRead = some answer ∧
    answer.identity = expected ∧ answer.Completed

/-- What was read last, if anything, has ended. -/
def ReadEnded (run : Run φ) : Prop := ∀ answer, run.lastRead = some answer → answer.Ended

/-- A record in `mcp-result.json` has ended. -/
def ResultEnded (run : Run φ) : Prop := ∀ answer, run.result = .record answer → answer.Ended

/-- The end of the job is reported as that of its run. -/
def ReportsRun (run : Run φ) : Prop := run.report = some .outcome ∨ run.report = some .recovered

/-- **The invariant of a job.** -/
structure Sound (expected : ExecutionIdentity) (run : Run φ) : Prop where
  succeeded : run.job = .succeeded → ShowsCompleted expected run
  reported : ReportsRun run → ReadEnded run
  resolved : run.intent = some .resolved → ResultEnded run
  open_unreported : run.job.terminal = false → run.report = none
  marked : run.pending = true → run.job ≠ .queued

/-- A run of a job that a worker has. -/
structure Working (run : Run φ) : Prop where
  held : run.job.held = true
  unreported : run.report = none
  resolved : run.intent = some .resolved → ResultEnded run

variable {run run' : Run φ}

/-! ### Changes of the task -/

@[simp]
theorem reading_intent (answer : RunAnswer φ) : (run.reading answer).intent = run.intent := by
  unfold Run.reading Run.withTask Run.intent
  cases run.task <;> rfl

@[simp]
theorem moving_lastRead (stage : IntentStage) : (run.moving stage).lastRead = run.lastRead := by
  unfold Run.moving Run.withTask Run.lastRead
  cases run.task <;> rfl

theorem moving_intent {stage : IntentStage} (h : run.intent = some stage) (stage' : IntentStage) :
    (run.moving stage').intent = some stage' := by
  unfold Run.intent at h
  unfold Run.moving Run.withTask Run.intent
  rcases htask : run.task with _ | task
  · rw [htask] at h
    cases h
  · rfl

/-- A record is read for a task that has an intent. -/
theorem reading_lastRead {stage : IntentStage} (h : run.intent = some stage)
    (answer : RunAnswer φ) : (run.reading answer).lastRead = some answer := by
  unfold Run.intent at h
  unfold Run.reading Run.withTask Run.lastRead
  rcases htask : run.task with _ | task
  · rw [htask] at h
    cases h
  · rfl

theorem ShowsCompleted.readEnded (h : ShowsCompleted expected run) : ReadEnded run := by
  obtain ⟨_, -, hread, -, hcomp⟩ := h.record
  intro _ hread'
  cases hread.symm.trans hread'
  exact hcomp.ended

theorem not_terminal_of_held {state : JobState} (h : state.held = true) :
    state.terminal = false ∧ state ≠ .queued := by
  cases state with
  | leased | running => exact ⟨rfl, by decide⟩
  | queued | succeeded | failed | canceled => cases h

namespace Working

theorem open_job (h : Working run) : run.job.terminal = false := (not_terminal_of_held h.held).1

theorem not_queued (h : Working run) : run.job ≠ .queued := (not_terminal_of_held h.held).2

/-- A worker that has ended nothing yet keeps the invariant. -/
theorem sound (h : Working run) : Sound expected run where
  succeeded hjob := by
    have hopen := h.open_job
    rw [hjob] at hopen
    cases hopen
  reported hrep := by
    rw [ReportsRun, h.unreported] at hrep
    simp at hrep
  resolved := h.resolved
  open_unreported _ := h.unreported
  marked _ := h.not_queued

/-- A change of the task that does not resolve the intent. -/
theorem withTask (h : Working run) {change : StoredTask φ → StoredTask φ}
    (hintent : ∀ task, (change task).intent = task.intent) : Working (run.withTask change) where
  held := h.held
  unreported := h.unreported
  resolved hresolved := by
    refine h.resolved ?_
    show run.task.bind StoredTask.intent = some .resolved
    have hchg : (run.task.map change).bind StoredTask.intent = some .resolved := hresolved
    rcases htask : run.task with _ | task
    · rw [htask] at hchg
      cases hchg
    · rw [htask] at hchg
      exact (hintent task).symm.trans hchg

theorem reading (h : Working run) (answer : RunAnswer φ) : Working (run.reading answer) :=
  h.withTask fun _ => rfl

theorem moving (h : Working run) {stage : IntentStage}
    (hended : stage = .resolved → ResultEnded run) : Working (run.moving stage) where
  held := h.held
  unreported := h.unreported
  resolved hresolved := by
    have hchg : (run.task.map fun task => { task with intent := some stage }).bind
        StoredTask.intent = some .resolved := hresolved
    rcases htask : run.task with _ | task
    · rw [htask] at hchg
      cases hchg
    · rw [htask] at hchg
      exact hended (Option.some.inj hchg)

/-- `mcp-result.json` is written. -/
theorem writing (h : Working run) {result : ResultFile φ}
    (hres : run.intent = some .resolved → ∀ answer, result = .record answer → answer.Ended) :
    Working { run with result := result } where
  held := h.held
  unreported := h.unreported
  resolved := hres

end Working

/-! ### The watch -/

section Worker

variable {α : Type} {Q : α → Run φ → Prop} {deferred : ExecutionIdentity} {answers : JobAnswers φ}

/-- A program that keeps the invariant: it leaves a worker's run with what it answers. -/
abbrev Works (expected : ExecutionIdentity) (m : JobProg φ α) (Q : α → Run φ → Prop)
    (run : Run φ) : Prop :=
  Holds m (Sound expected) (fun a run => Working run ∧ Q a run) (fun _ => Working) run

theorem works_watchQuery {query : Except Fault (RunAnswer φ)} (h : Working run) :
    Works expected (watchQuery deferred query)
      (fun answer run' => run' = run.reading answer) run := by
  unfold watchQuery
  refine holds_ofExcept (fun answer _ => ?_) fun _ _ => h
  refine holds_require (fun _ => ?_) h
  refine holds_onRun (h.reading answer).sound ?_
  exact holds_pure ⟨h.reading answer, rfl⟩

/-- Polling keeps the intent of the run, by induction on the answers that are still to come. -/
theorem works_pollUntilEnded {deferred : ExecutionIdentity} :
    ∀ (polls : List (Except Fault (RunAnswer φ))) (run : Run φ), Working run →
      Works expected (pollUntilEnded deferred polls) (fun _ run' => run'.intent = run.intent) run
  | [], _, h => holds_raise h
  | poll :: polls, run, h => by
      unfold pollUntilEnded
      refine holds_bind ((works_watchQuery h).mono (fun _ h => h) ?_ fun _ _ h => h)
      rintro answer _ ⟨hwork, rfl⟩
      by_cases hended : answer.Ended
      · rw [if_pos hended]
        exact holds_pure ⟨hwork, reading_intent answer⟩
      · rw [if_neg hended]
        have hpolls : Works expected (pollUntilEnded deferred polls) _ _ :=
          works_pollUntilEnded polls _ hwork
        rwa [reading_intent] at hpolls

/-- What a watch says of the record that it leaves in `mcp-result.json`. -/
structure WatchSays (resolution : Option ExecutionWatchResolution) (run run' : Run φ) : Prop where
  intent : run'.intent = run.intent
  ended : ResultEnded run'
  succeeded : ∀ watched, resolution = some watched → ∃ answer, run'.result = .record answer ∧
    (watched.succeeded = true → answer.Completed)
  unwatched : resolution = none → run'.result = run.result
  unread : (∀ answer, run.result ≠ .record answer) → resolution = none ∧ run' = run

/-- A watch that runs leaves the record of an ended execution, and of a completed one if it reports
a success. -/
theorem works_runExecutionWatch (h : Working run) :
    Works expected (runExecutionWatch answers deferred)
      (fun resolution run' => run'.intent = run.intent ∧ ∃ answer, run'.result = .record answer ∧
        answer.Ended ∧ (resolution.succeeded = true → answer.Completed)) run := by
  unfold runExecutionWatch
  refine holds_bind ((works_pollUntilEnded answers.polls run h).mono (fun _ h => h) ?_
    fun _ _ h => h)
  rintro ⟨⟩ polled ⟨hpolled, hintent⟩
  refine holds_bind ((works_watchQuery hpolled).mono (fun _ h => h) ?_ fun _ _ h => h)
  rintro final _ ⟨hread, rfl⟩
  refine holds_require (fun hended => ?_) hread
  have hended := of_decide_eq_true hended
  have hwritten : Working { polled.reading final with result := .record final } := by
    refine hread.writing fun _ answer hans => ?_
    cases hans
    exact hended
  refine holds_onRun hwritten.sound ?_
  refine holds_reach hwritten.not_queued hwritten.sound ?_ fun _ => hwritten
  refine holds_pure ⟨hwritten, ?_, final, rfl, hended, fun h => ⟨hended, beq_iff_eq.1 h⟩⟩
  exact (reading_intent final).trans hintent

/-- Watching a deferred execution leaves the record of an ended one, completed if the watch
succeeded; without a record to watch nothing is changed. -/
theorem works_watchDeferred (h : Working run) :
    Works expected (watchDeferredJarvisExecution answers)
      (fun resolution run' => WatchSays resolution run run') run := by
  unfold watchDeferredJarvisExecution
  refine holds_lookRun (f := Run.result) ?_
  cases hres : run.result with
  | record answer =>
    dsimp only
    refine holds_onRun (h.reading answer).sound ?_
    rcases hdeferred : deferredJarvisExecution answer with _ | _
    · refine holds_pure ⟨h.reading answer, reading_intent answer, ?_, ?_, fun _ => rfl, ?_⟩
      · intro answer' hans'
        cases hres.symm.trans hans'
        exact ended_of_not_deferred hdeferred
      · intro watched hwatched
        cases hwatched
      · exact fun hnone => absurd hres (hnone answer)
    · dsimp only
      rw [← bind_pure_comp]
      refine holds_bind ((works_runExecutionWatch (h.reading answer)).mono (fun _ h => h) ?_
        fun _ _ h => h)
      rintro resolution watched ⟨hwork, hintent, final, hfinal, hended, hcomp⟩
      refine holds_pure ⟨hwork, hintent.trans (reading_intent answer), ?_, ?_, ?_, ?_⟩
      · intro answer' hans'
        cases hfinal.symm.trans hans'
        exact hended
      · rintro _ ⟨⟩
        exact ⟨final, hfinal, hcomp⟩
      · intro hnone
        cases hnone
      · exact fun hnone => absurd hres (hnone answer)
  | absent | refusal refusal | other =>
    refine holds_pure ⟨h, rfl, ?_, ?_, fun _ => rfl, fun _ => ⟨rfl, rfl⟩⟩
    · intro answer hans
      cases hres.symm.trans hans
    · intro watched hwatched
      cases hwatched

/-! ### The intent is settled -/

theorem works_settleIntent {stage : IntentStage} (h : Working run)
    (hended : stage = .resolved → ResultEnded run) :
    Works expected (settleIntent stage)
      (fun _ run' => run.intent = some .started ∧ run' = run.moving stage) run := by
  unfold settleIntent
  refine holds_lookRun (f := Run.intent) ?_
  refine holds_require (fun hstart => ?_) h
  have hmoved := h.moving hended
  exact holds_onRun_last hmoved.sound ⟨hmoved, of_decide_eq_true hstart, rfl⟩

/-- A record is in `mcp-result.json`, is that of the execution, and was read last. -/
def ShowsRecord (expected : ExecutionIdentity) (answer : RunAnswer φ) (run : Run φ) : Prop :=
  run.result = .record answer ∧ run.lastRead = some answer ∧ answer.identity = expected

/-- What an ingest says of `mcp-result.json`. -/
structure IngestSays (expected : ExecutionIdentity) (outcome : IngestOutcome) (run run' : Run φ) :
    Prop where
  ingested : outcome.ingested = true → run'.intent = some .resolved ∧ run'.result = run.result ∧
    ∃ answer, ShowsRecord expected answer run'
  other : outcome.ingested = false → (∀ answer, run.result ≠ .record answer) ∧ run' = run

/-- An ingest resolves the intent and shows the record in `mcp-result.json`, or finds no record
there and changes nothing. -/
theorem works_ingest {surroundings : Surroundings} (h : Working run) (hended : ResultEnded run) :
    Works expected (ingestMcpRuntimeMetadata surroundings expected)
      (fun outcome run' => IngestSays expected outcome run run') run := by
  unfold ingestMcpRuntimeMetadata
  refine holds_lookRun (f := Run.result) ?_
  cases hres : run.result with
  | record answer =>
    refine holds_require (fun hident => ?_) h
    have hread := h.reading answer
    refine holds_onRun hread.sound (holds_reach hread.not_queued hread.sound ?_ fun _ => hread)
    refine holds_bind ((works_settleIntent hread fun _ => hended).mono (fun _ h => h) ?_
      fun _ _ h => h)
    rintro ⟨⟩ _ ⟨hmoved, hstart, rfl⟩
    have hresolved := moving_intent hstart .resolved
    rw [reading_intent] at hstart
    refine holds_pure ⟨hmoved, fun _ => ⟨hresolved, rfl, answer, hres, ?_, ?_⟩, ?_⟩
    · exact (moving_lastRead _).trans (reading_lastRead hstart answer)
    · exact of_decide_eq_true hident
    · intro hnot
      cases hnot
  | absent | refusal refusal | other =>
    refine holds_pure ⟨h, ?_, fun _ => ⟨?_, rfl⟩⟩
    · intro hnot
      cases hnot
    · intro answer hans
      cases hres.symm.trans hans

/-- A recovery is reported only with a completed execution shown, and the run stays at work. -/
theorem works_recover {recovery : Except Fault (RunAnswer φ)} (h : Working run)
    (hstart : run.intent = some .started)
    (hrecov : ∀ answer, recovery = .ok answer → answer.Completed) :
    Works expected (recoverJarvisExecution expected recovery)
      (fun recovered run' => recovered = true ∧ ShowsCompleted expected run') run := by
  unfold recoverJarvisExecution
  refine holds_lookRun (f := Run.intent) ?_
  rw [hstart]
  refine holds_ofExcept (fun answer hans => ?_) fun _ _ => h
  have hcomp := hrecov answer hans
  refine holds_require (fun hident => ?_) h
  have hread := h.reading answer
  refine holds_onRun hread.sound ?_
  have hwritten : Working { run.reading answer with result := .record answer } := by
    refine hread.writing fun _ answer' hans' => ?_
    cases hans'
    exact hcomp.ended
  refine holds_onRun hwritten.sound ?_
  have hended : ResultEnded { run.reading answer with result := .record answer } := by
    intro answer' hans'
    cases hans'
    exact hcomp.ended
  refine holds_bind ((works_settleIntent hwritten fun _ => hended).mono (fun _ h => h) ?_
    fun _ _ h => h)
  rintro ⟨⟩ _ ⟨hmoved, hread, rfl⟩
  refine holds_pure ⟨hmoved, rfl, moving_intent hread _, answer, rfl, ?_,
    of_decide_eq_true hident, hcomp⟩
  exact (moving_lastRead _).trans (reading_lastRead hstart answer)

/-- What a settled dispatch says of the run. -/
structure SettleSays (expected : ExecutionIdentity) (outcome : IngestOutcome) (recovered : Bool)
    (run run' : Run φ) : Prop where
  shows : recovered = true → ShowsCompleted expected run'
  ingested : outcome.ingested = true → recovered = false ∧ run' = run
  refused : recovered = false → outcome.ingested = true ∨
    (outcome.refusal.isSome = true ∧ run'.lastRead = run.lastRead)

/-- Settling a dispatch leaves an ingested result as it is, and recovers only with a completed
execution shown. -/
theorem works_settleDispatch {outcome : IngestOutcome} (h : Working run)
    (hstart : outcome.ingested = false → run.intent = some .started)
    (hrecov : ∀ answer, answers.recovery = .ok answer → answer.Completed) :
    Works expected (settleDispatch answers expected outcome)
      (fun recovered run' => SettleSays expected outcome recovered run run') run := by
  unfold settleDispatch
  rcases hing : outcome.ingested with _ | _
  · rw [if_neg (by decide)]
    rcases hrefusal : outcome.refusal.isSome with _ | _
    · rw [if_neg (by decide)]
      refine (works_recover h (hstart hing) hrecov).mono (fun _ h => h) ?_ fun _ _ h => h
      rintro recovered run' ⟨hwork, rfl, hcomp⟩
      refine ⟨hwork, fun _ => hcomp, ?_, ?_⟩
      · intro hnot
        cases hing.symm.trans hnot
      · intro hnot
        cases hnot
    · rw [if_pos rfl]
      refine holds_bind ((works_settleIntent h ?_).mono (fun _ h => h) ?_ fun _ _ h => h)
      · intro hnot
        cases hnot
      · rintro ⟨⟩ _ ⟨hmoved, -, rfl⟩
        refine holds_pure ⟨hmoved, ?_, ?_, fun _ => .inr ⟨hrefusal, moving_lastRead _⟩⟩
        · intro hnot
          cases hnot
        · intro hnot
          cases hing.symm.trans hnot
  · rw [if_pos rfl]
    refine holds_pure ⟨h, ?_, fun _ => ⟨rfl, rfl⟩, fun _ => .inl hing⟩
    intro hnot
    cases hnot

end Worker

end ClioQueue.JobRun
