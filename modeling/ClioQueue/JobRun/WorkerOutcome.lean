/-
# The outcome of a worker's run

The invariant of a job is kept to the end of a worker's run, where a dispatch that exits with zero
leaves no record that ended without completing, and where the query for a lost answer finds a
completed execution (`runOnce_keeps`).
-/

import ClioQueue.JobRun.WorkerKeeps

namespace ClioQueue.JobRun

open Durable Wire Jarvis Recovery

variable {φ : Type} {expected : ExecutionIdentity} {run run' : Run φ}
  {answers : JobAnswers φ} {state : JobState} {report : Report} {surroundings : Surroundings}

/-! ### The end of a job -/

@[simp]
theorem withState_lastRead (state : JobState) :
    (run.withTask fun task => { task with state := state }).lastRead = run.lastRead := by
  unfold Run.withTask Run.lastRead
  cases run.task <;> rfl

@[simp]
theorem withState_intent (state : JobState) :
    (run.withTask fun task => { task with state := state }).intent = run.intent := by
  unfold Run.withTask Run.intent
  cases run.task <;> rfl

@[simp]
theorem withState_pending (state : JobState) :
    (run.withTask fun task => { task with state := state }).pending = run.pending := by
  unfold Run.withTask Run.pending
  cases run.task <;> rfl

@[simp]
theorem withPending_lastRead (pending : Bool) :
    (run.withTask fun task => { task with pending := pending }).lastRead = run.lastRead := by
  unfold Run.withTask Run.lastRead
  cases run.task <;> rfl

@[simp]
theorem withPending_intent (pending : Bool) :
    (run.withTask fun task => { task with pending := pending }).intent = run.intent := by
  unfold Run.withTask Run.intent
  cases run.task <;> rfl

/-- **The invariant is about the job, its report, the result, the intent and what was read.** -/
theorem Sound.congr (h : Sound expected run) (hjob : run'.job = run.job)
    (hrep : run'.report = run.report) (hres : run'.result = run.result)
    (hintent : run'.intent = run.intent) (hread : run'.lastRead = run.lastRead)
    (hmark : run'.pending = true → run.job ≠ .queued) : Sound expected run' where
  succeeded hsucc := by
    obtain ⟨hresolved, answer, hrec, hlast, hrest⟩ := h.succeeded (hjob ▸ hsucc)
    exact ⟨hintent.trans hresolved, answer, hres.trans hrec, hread.trans hlast, hrest⟩
  reported hreports answer hans := by
    refine h.reported ?_ answer (hread ▸ hans)
    rwa [ReportsRun, hrep] at hreports
  resolved hresolved answer hans := h.resolved (hintent ▸ hresolved) answer (hres ▸ hans)
  open_unreported hopen := hrep.trans (h.open_unreported (hjob ▸ hopen))
  marked hpend := hjob ▸ hmark hpend

theorem Sound.withState (h : Sound expected run) (state : JobState) :
    Sound expected (run.withTask fun task => { task with state := state }) :=
  h.congr rfl rfl rfl (withState_intent state) (withState_lastRead state) fun hpend =>
    h.marked ((withState_pending state).symm.trans hpend)

theorem Sound.acknowledged (h : Sound expected run) :
    Sound expected (run.withTask fun task => { task with pending := false }) := by
  refine h.congr rfl rfl rfl (withPending_intent false) (withPending_lastRead false) fun hpend => ?_
  have hnot : (run.withTask fun task => { task with pending := false }).pending = false := by
    unfold Run.withTask Run.pending
    cases run.task <;> rfl
  exact absurd (hnot.symm.trans hpend) Bool.false_ne_true

/-- **The job ends.** -/
theorem Sound.ending (h : Sound expected run) (hterm : state.terminal = true)
    (hsucc : state = .succeeded → ShowsCompleted expected run)
    (hrep : report = .outcome ∨ report = .recovered → ReadEnded run) :
    Sound expected (run.ending state report) where
  succeeded hjob := ⟨(hsucc hjob).intent, (hsucc hjob).record⟩
  reported hreports := hrep (hreports.imp Option.some.inj Option.some.inj)
  resolved := h.resolved
  open_unreported hopen := by
    have hnot : state.terminal = false := hopen
    rw [hterm] at hnot
    cases hnot
  marked _ := by
    show state ≠ .queued
    rintro rfl
    cases hterm

/-- A program that keeps the invariant, and claims nothing else. -/
abbrev Keeps {α : Type} (expected : ExecutionIdentity) (m : JobProg φ α) (run : Run φ) : Prop :=
  Holds m (Sound expected) (fun _ => Sound expected) (fun _ => Sound expected) run

theorem keeps_acknowledgeJobCancellation (h : Sound expected run) :
    Keeps expected acknowledgeJobCancellation run := by
  unfold acknowledgeJobCancellation
  refine holds_look fun canceled => ?_
  dsimp only [id]
  by_cases hcan : run.job = .canceled
  · rw [if_pos hcan]
    exact holds_pure h
  · rw [if_neg hcan]
    refine holds_require (fun _ => holds_require (fun _ => ?_) h) h
    have hended : Sound expected (run.ending .canceled .canceled) :=
      h.ending rfl (by simp) (by simp)
    exact holds_onRun_last hended hended

theorem keeps_endJob (h : Sound expected run) (hterm : state.terminal = true)
    (hsucc : state = .succeeded → ShowsCompleted expected run)
    (hrep : report = .outcome ∨ report = .recovered → ReadEnded run) :
    Keeps expected (endJob state report) run := by
  unfold endJob
  refine holds_lookRun (f := Run.job) (holds_require (fun _ => ?_) h)
  have hended := h.ending hterm hsucc hrep
  exact holds_onRun_last hended hended

theorem ShowsCompleted.withState (h : ShowsCompleted expected run) (state : JobState) :
    ShowsCompleted expected (run.withTask fun task => { task with state := state }) := by
  obtain ⟨hresolved, answer, hres, hread, hrest⟩ := h
  exact ⟨(withState_intent state).trans hresolved, answer, hres,
    (withState_lastRead state).trans hread, hrest⟩

theorem ReadEnded.withState (h : ReadEnded run) (state : JobState) :
    ReadEnded (run.withTask fun task => { task with state := state }) :=
  fun answer hans => h answer ((withState_lastRead state).symm.trans hans)

/-- Finishing a job keeps its record sound, if a zero effective return code shows a completed
execution. -/
theorem keeps_finishJob {outcome : ExecutionOutcome φ} (h : Working run)
    (hzero : outcome.effectiveReturncode = 0 → ShowsCompleted expected run) (hread : ReadEnded run) :
    Keeps expected (finishJob surroundings outcome) run := by
  have hst (state : JobState) :
      Working (run.withTask fun task => { task with state := state }) := h.withTask fun _ => rfl
  unfold finishJob
  refine holds_reach h.not_queued h.sound ?_ fun _ => h.sound
  by_cases hcan : outcome.cancellationHonored = true
  · rw [if_pos hcan]
    have hwork := hst .canceled
    refine holds_onRun hwork.sound ?_
    refine holds_reach hwork.not_queued hwork.sound ?_ fun _ => hwork.sound
    exact keeps_acknowledgeJobCancellation hwork.sound
  · rw [if_neg hcan]
    by_cases hcode : outcome.effectiveReturncode = 0
    · rw [if_pos hcode]
      have hwork := hst .succeeded
      refine holds_onRun hwork.sound ?_
      refine holds_reach hwork.not_queued hwork.sound ?_ fun _ => hwork.sound
      exact keeps_endJob hwork.sound rfl (fun _ => (hzero hcode).withState _)
        fun _ => hread.withState _
    · rw [if_neg hcode]
      have hwork := hst .failed
      refine holds_onRun hwork.sound ?_
      refine holds_reach hwork.not_queued hwork.sound ?_ fun _ => hwork.sound
      exact keeps_endJob hwork.sound rfl (by simp) fun _ => hread.withState _

/-! ### The outcome of a dispatch -/

/-- A record of `mcp-result.json`, if it has ended, has completed. -/
def NoFailedRecord (result : ResultFile φ) : Prop :=
  ∀ answer, result = .record answer → answer.Ended → answer.Completed

section Conclusion

variable {run₁ run₂ run₃ : Run φ} {resolution : Option ExecutionWatchResolution}
  {outcome : IngestOutcome} {recovered : Bool}

section

variable (hwatch : WatchSays resolution run run₁) (hingest : IngestSays expected outcome run₁ run₂)
  (hsettle : SettleSays expected outcome recovered run₂ run₃)

include hwatch hingest hsettle

/-- **A run whose outcome is zero shows a completed record.** -/
theorem showsCompleted_of_zero {returncode : Int}
    (hdisp : returncode = 0 → NoFailedRecord run.result)
    (hzero : recovered = true ∨ (∃ watched, resolution = some watched ∧ watched.succeeded = true) ∨
      (resolution = none ∧ outcome.refusal.isSome = false ∧ returncode = 0)) :
    ShowsCompleted expected run₃ := by
  rcases hrecovered : recovered with _ | _
  · -- the answer was ingested: nothing else leaves an outcome of zero
    have hing : outcome.ingested = true := by
      rcases hsettle.refused hrecovered with hing | ⟨href, -⟩
      · exact hing
      · rcases hnot : outcome.ingested with _ | _
        · obtain ⟨hnone, -⟩ := hingest.other hnot
          rcases hzero with hzero | ⟨watched, hwatched, -⟩ | ⟨-, hrefusal, -⟩
          · rw [hrecovered] at hzero
            cases hzero
          · obtain ⟨answer, hans, -⟩ := hwatch.succeeded watched hwatched
            exact absurd hans (hnone answer)
          · rw [hrefusal] at href
            cases href
        · rfl
    obtain ⟨hresolved, hsame, answer, hres, hread, hident⟩ := hingest.ingested hing
    obtain ⟨-, rfl⟩ := hsettle.ingested hing
    refine ⟨hresolved, answer, hres, hread, hident, ?_⟩
    rcases hzero with hzero | ⟨watched, hwatched, hsucc⟩ | ⟨hunwatched, -, hcode⟩
    · rw [hrecovered] at hzero
      cases hzero
    · obtain ⟨_, hans', hcomp⟩ := hwatch.succeeded watched hwatched
      cases hres.symm.trans (hsame.trans hans')
      exact hcomp hsucc
    · have hended := hwatch.ended answer (hsame.symm.trans hres)
      have hfound := (hwatch.unwatched hunwatched).symm.trans (hsame.symm.trans hres)
      exact hdisp hcode answer hfound hended
  · exact hsettle.shows hrecovered

/-- **Whatever the outcome of a run, what was read last has ended.** -/
theorem readEnded_of_says (hunread : run.lastRead = none) : ReadEnded run₃ := by
  rcases hrecovered : recovered with _ | _
  · rcases hing : outcome.ingested with _ | _
    · obtain ⟨hnone, rfl⟩ := hingest.other hing
      have hfound : ∀ answer, run.result ≠ .record answer := by
        intro answer hans
        rcases hresol : resolution with _ | watched
        · exact hnone answer ((hwatch.unwatched hresol).trans hans)
        · obtain ⟨answer', hans', -⟩ := hwatch.succeeded watched hresol
          exact hnone answer' hans'
      obtain ⟨-, rfl⟩ := hwatch.unread hfound
      rcases hsettle.refused hrecovered with hnot | ⟨-, hread⟩
      · rw [hing] at hnot
        cases hnot
      · intro answer hans
        rw [hread, hunread] at hans
        cases hans
    · obtain ⟨-, hsame, answer, hres, hread, -⟩ := hingest.ingested hing
      obtain ⟨-, rfl⟩ := hsettle.ingested hing
      intro answer' hans'
      cases hread.symm.trans hans'
      exact hwatch.ended answer (hsame.symm.trans hres)
  · exact (hsettle.shows hrecovered).readEnded

end

end Conclusion

/-- A query for a lost answer that finds a completed execution, if it finds one. -/
def RecoversCompleted (recovery : Except Fault (RunAnswer φ)) : Prop :=
  ∀ answer, recovery = .ok answer → answer.Completed

/-- A run of which a dispatch has just exited. -/
structure Dispatched (run : Run φ) : Prop where
  working : Working run
  intent : run.intent = some .started
  unread : run.lastRead = none

/-- Concluding a dispatch keeps the record of the job sound: the return code, the watch and the
recovery are settled in turn. -/
theorem keeps_concludeDispatch (h : Dispatched run)
    (hdisp : answers.returncode = 0 → NoFailedRecord run.result)
    (hrecov : RecoversCompleted answers.recovery) :
    Keeps expected (concludeDispatch answers expected) run := by
  unfold concludeDispatch
  refine holds_bind ((works_watchDeferred h.working).mono (fun _ h => h) ?_ fun _ _ h => h.sound)
  rintro _ _ ⟨h₁, hwatch⟩
  refine holds_reach h₁.not_queued h₁.sound ?_ fun _ => h₁.sound
  refine holds_bind ((works_ingest h₁ hwatch.ended).mono (fun _ h => h) ?_ fun _ _ h => h.sound)
  rintro outcome run₂ ⟨h₂, hingest⟩
  have hstart : outcome.ingested = false → run₂.intent = some .started := by
    intro hnot
    obtain ⟨-, rfl⟩ := hingest.other hnot
    exact hwatch.intent.trans h.intent
  refine holds_bind ((works_settleDispatch h₂ hstart hrecov).mono (fun _ h => h) ?_
    fun _ _ h => h.sound)
  rintro _ _ ⟨h₃, hsettle⟩
  refine holds_reach h₃.not_queued h₃.sound ?_ fun _ => h₃.sound
  refine holds_look fun canceled => keeps_finishJob h₃ (fun hzero => ?_) ?_
  · exact showsCompleted_of_zero hwatch hingest hsettle hdisp (outcome_zero hzero)
  · exact readEnded_of_says hwatch hingest hsettle h.unread

/-! ### A worker -/

/-- A job at the start of an attempt. -/
def Run.attempted (run : Run φ) : Run φ :=
  { run with job := .running, task := some ⟨.running, none, false, none⟩ }

theorem keeps_acknowledgeExecutionCleanup (h : Sound expected run) :
    Keeps expected acknowledgeExecutionCleanup run :=
  holds_onRun_last h.acknowledged h.acknowledged

theorem keeps_runDispatch {k : JobProg φ Unit} (h : Working run) (htask : run.task.isSome)
    (hunread : run.lastRead = none)
    (hnext : ∀ run', Dispatched run' → run'.result = answers.dispatched.getD run.result → Keeps expected k run') :
    Keeps expected (runDispatch answers >>= fun _ => k) run := by
  unfold runDispatch
  have hstart : (run.moving .started).intent = some .started := by
    unfold Run.moving Run.withTask Run.intent
    rcases hrun : run.task with _ | task
    · rw [hrun] at htask
      cases htask
    · rfl
  have hmoved : Working (run.moving .started) := h.moving (by simp)
  have hwritten : Working { run.moving .started with
      result := answers.dispatched.getD (run.moving .started).result } := by
    refine hmoved.writing fun hresolved => ?_
    cases hstart.symm.trans hresolved
  refine holds_bind (holds_onRun hmoved.sound (holds_onRun hwritten.sound ?_))
  refine holds_reach_last hwritten.not_queued hwritten.sound ?_ fun _ => hwritten.sound
  exact hnext _ ⟨hwritten, hstart, (moving_lastRead _).trans hunread⟩ rfl

theorem keeps_reconcileCanceledExecution (h : Working run) :
    Keeps expected (reconcileCanceledExecution surroundings) run := by
  unfold reconcileCanceledExecution
  refine holds_lookRun (f := Run.taskOpen) ?_
  by_cases hopen : run.taskOpen = true
  · rw [if_pos hopen]
    refine holds_reach h.not_queued h.sound ?_ fun _ => h.sound
    have hsound : Sound expected run := h.sound
    have hclosed := hsound.withState .canceled
    exact holds_onRun hclosed (keeps_acknowledgeExecutionCleanup hclosed)
  · rw [if_neg hopen]
    exact holds_pure h.sound

/-- A whole run of the worker keeps the record of the job sound, if a zero return code leaves no
failed record and only completed executions are recovered. -/
theorem keeps_runJobImpl (h : Working run)
    (hdisp : answers.returncode = 0 → NoFailedRecord (answers.dispatched.getD run.result))
    (hrecov : RecoversCompleted answers.recovery) :
    Keeps expected (runJobImpl expected answers) run := by
  unfold runJobImpl
  refine holds_reach h.not_queued h.sound ?_ fun _ => h.sound
  refine holds_look fun canceled => ?_
  rcases canceled with _ | _
  · rw [if_neg Bool.false_ne_true]
    have hrunning : Working { run with job := .running } := ⟨rfl, h.unreported, h.resolved⟩
    have hatt : Working run.attempted := by
      refine ⟨rfl, h.unreported, fun hresolved => ?_⟩
      cases (show (none : Option IntentStage) = some .resolved from hresolved)
    have hmark : Working (run.attempted.withTask fun task => { task with pending := true }) :=
      hatt.withTask fun _ => rfl
    have hprep : Working (Run.moving .prepared
        (run.attempted.withTask fun task => { task with pending := true })) :=
      hmark.moving (by simp)
    refine holds_onRun hrunning.sound (holds_onRun hatt.sound ?_)
    refine holds_reach hatt.not_queued hatt.sound ?_ fun _ => hatt.sound
    refine holds_bind (holds_onRun hmark.sound (holds_onRun_last hprep.sound ?_))
    refine holds_reach hprep.not_queued hprep.sound ?_ fun _ => hprep.sound
    refine keeps_runDispatch hprep rfl rfl fun run' hdispatched hres => ?_
    exact keeps_concludeDispatch hdispatched (fun hcode => hres ▸ hdisp hcode) hrecov
  · rw [if_pos rfl]
    refine holds_bind ((keeps_reconcileCanceledExecution h).mono (fun _ h => h) ?_ fun _ _ h => h)
    exact fun _ _ hsound => keeps_acknowledgeJobCancellation hsound

theorem keeps_cleanUp (h : Sound expected run) : Keeps expected (cleanUp surroundings) run := by
  unfold cleanUp
  refine holds_lookRun (f := Run.pending) ?_
  by_cases hpend : run.pending = true
  · rw [if_pos hpend]
    refine holds_reach (h.marked hpend) h ?_ fun _ => h
    exact keeps_acknowledgeExecutionCleanup h
  · rw [if_neg hpend]
    exact holds_pure h

/-- A run of a job by the worker keeps its record sound; the cleanup that follows changes nothing of
it. -/
theorem keeps_runJob (h : Working run)
    (hdisp : answers.returncode = 0 → NoFailedRecord (answers.dispatched.getD run.result))
    (hrecov : RecoversCompleted answers.recovery) :
    Keeps expected (runJob expected answers) run := by
  have hcleaned {ended : Except Fault Unit} {run' : Run φ} (hsound : Sound expected run') :
      Keeps expected (do cleanUp answers.toSurroundings; Prog.ofExcept ended) run' := by
    refine holds_bind ((keeps_cleanUp hsound).mono (fun _ h => h) ?_ fun _ _ h => h)
    intro _ _ hcleaned
    rcases ended with fault | _
    · exact holds_raise hcleaned
    · exact holds_pure hcleaned
  unfold runJob
  refine holds_attempt ((keeps_runJobImpl h hdisp hrecov).mono (fun _ h => h) ?_ ?_)
  · exact fun _ _ hsound => hcleaned hsound
  · intro fault run' hsound
    rcases fault with message | message
    · exact holds_raise hsound
    · exact hcleaned hsound

theorem keeps_closeTask (h : Sound expected run) :
    Holds (closeTask state) (Sound expected) (fun _ run' => run' = run ∨
      run' = run.withTask fun task => { task with state := state }) (fun _ => Sound expected)
      run := by
  unfold closeTask
  refine holds_lookRun (f := Run.taskOpen) ?_
  by_cases hopen : run.taskOpen = true
  · rw [if_pos hopen]
    exact holds_onRun_last (h.withState state) (.inr rfl)
  · rw [if_neg hopen]
    exact holds_pure (.inl rfl)

theorem keeps_recordUnhandledJobFailure {fault : Fault} (h : Sound expected run) :
    Keeps expected (recordUnhandledJobFailure fault) run := by
  unfold recordUnhandledJobFailure
  refine holds_lookRun (f := id) ?_
  dsimp only [id]
  by_cases hdeferred : (decide (run.job = .canceled) || recoveryDeferred fault run) = true
  · rw [if_pos hdeferred]
    exact holds_pure h
  · rw [if_neg hdeferred]
    refine holds_bind ((keeps_closeTask h).mono (fun _ h => h) ?_ fun _ _ h => h)
    rintro ⟨⟩ closed hclosed
    have hsound : Sound expected closed := by
      rcases hclosed with rfl | rfl
      · exact h
      · exact h.withState .failed
    exact keeps_endJob hsound rfl (by simp) (by simp)

/-- **A worker keeps the invariant**, wherever it stops. -/
theorem runOnce_keeps (h : Working run)
    (hdisp : answers.returncode = 0 → NoFailedRecord (answers.dispatched.getD run.result))
    (hrecov : RecoversCompleted answers.recovery) :
    Keeps expected (runOnce expected answers) run := by
  unfold runOnce
  refine holds_attempt ((keeps_runJob h hdisp hrecov).mono (fun _ h => h) ?_ ?_)
  · exact fun _ _ hsound => holds_pure hsound
  · exact fun _ _ hsound => keeps_recordUnhandledJobFailure hsound

end ClioQueue.JobRun
