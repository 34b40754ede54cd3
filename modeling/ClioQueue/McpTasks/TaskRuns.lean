/-
# Runs of the task runtime

Any number of clients call `create_task`, `task_status` and `update_task`, and their actions
interleave.  A status that is returned says what is so: a task is reported completed only when its
result is stored, and reported working or waiting only when it was not settled in the record that
the client read.  With what the writers keep, every run moves the stored projections forward
(`task_runs_move_forward`).
-/

import ClioQueue.McpTasks.TaskClients

namespace ClioQueue.McpTasks

open Durable Wire

variable {φ : Type}

section

variable [PyFloat φ] [McpTypes φ] {surroundings : Surroundings φ} {s : Tasks φ}

/-! ### What a status says -/

/-- A task that is reported completed or failed. -/
def GetTaskResult.isFinal (result : GetTaskResult φ) : Bool :=
  result.status = .completed || result.status = .failed

/-- A task that is reported working, or as one that needs input. -/
def GetTaskResult.isOpen (result : GetTaskResult φ) : Bool :=
  result.status = .working || result.status = .inputRequired

/-- What a status of a record says of the record, and of the directory from then on. -/
structure StatusOf (record : TaskRecord φ) (result : GetTaskResult φ) (t : Tasks φ) : Prop where
  taskId : result.taskId = record.taskId
  settled : result.isFinal = true → t.IsSettled record.taskId
  unsettled : result.isOpen = true → record.projection.isSettled = false

/-- A job that is not terminal is reported as one that is worked on. -/
theorem relayStateProjection_state {state : JobState} (h : state.terminal = false) :
    relayStateProjection state.value = .ok (.working, none) := by
  cases state with
  | queued | leased | running => rfl
  | succeeded | failed | canceled => cases h

omit [PyFloat φ] [McpTypes φ] in
theorem relayStateProjection_result (result : Fields (Number φ)) :
    ∃ isError, relayStateProjection (resultObservation result) = .ok (.completed, isError) := by
  unfold resultObservation
  split
  · exact ⟨some true, rfl⟩
  · exact ⟨some false, rfl⟩

omit [McpTypes φ] in
theorem keeps_resultStatus {record : TaskRecord φ} {result : Fields (Number φ)}
    {f : McpTaskStatus × Option Bool → TaskProgram φ (GetTaskResult φ)}
    (hf : ∀ isError, ∃ status : GetTaskResult φ, f (.completed, isError) = pure status ∧
      status.taskId = record.taskId ∧ status.status = .completed)
    (hsettled : s.IsSettled record.taskId) :
    Keeps surroundings (onOk (StatusOf record))
      (Proc.ofExcept (relayStateProjection (resultObservation result)) >>= f) s := by
  obtain ⟨isError, hproj⟩ := relayStateProjection_result result
  obtain ⟨status, hf, htid, hstat⟩ := hf isError
  rw [hproj]
  show Keeps surroundings _ (f (.completed, isError)) s
  rw [hf]
  refine keeps_pure ⟨htid, fun _ => hsettled, fun hopen => ?_⟩
  rw [GetTaskResult.isOpen, hstat] at hopen
  cases hopen

omit [McpTypes φ] in
theorem keeps_jobStatus {record : TaskRecord φ} :
    Keeps surroundings (onOk fun _ t => s.Grows t ∧ t.Sound) (jobStatus record) s := by
  refine keeps_ofExcept (fun route _ => ?_) fun e _ => onOk_error e s
  split
  · refine keeps_reading (fun t x t' hx => hx.2) fun t x hsound hgrow _ => ?_
    refine keeps_ofExcept (fun job _ => ?_) fun e _ => onOk_error e t
    rcases job with _ | job
    · exact keeps_raise _
    · exact keeps_pure ⟨hgrow, hsound⟩
  · refine keeps_reading (fun t x t' hx => hx.2) fun t x hsound hgrow _ => ?_
    exact fun job _ => ⟨hgrow, hsound⟩

/-- A result that is returned is stored. -/
theorem keeps_completeTask {record : TaskRecord φ} {state : JobState} (hheld : record.HeldIn s)
    (hsound : s.Sound) (hnone : record.projection.completedResult = none) :
    Keeps surroundings (onOk fun _ t => t.IsSettled record.taskId) (completeTask record state)
      s := by
  refine keeps_bind (R := fun _ t => s.Grows t ∧ t.Sound)
    ((keeps_terminalCompletedResult hsound).imp fun result t h _ _ => h) ?_
  rintro final t ⟨hgrow, -⟩
  refine keeps_require fun _ => ?_
  refine keeps_update (hheld.grows hgrow)
    (fun hsound hval => continues_completed hsound hnone hval) ?_ ?_
  · intro t' stored _ _ hstored htid hproj
    refine keeps_pure ⟨stored, htid ▸ hstored, ?_⟩
    rw [hproj]
    rfl
  · intro t' e _ _
    show Keeps surroundings _ (if e.isConflict then _ else _) t'
    split
    · refine keeps_getMcpTask onOk_error fun t'' updated _ _ hupd htid => ?_
      rcases hcomp : updated.projection.completedResult with _ | result
      · exact keeps_raise e
      · refine keeps_pure ⟨updated, htid ▸ hupd, ?_⟩
        rw [TaskProjection.isSettled, hcomp]
        rfl
    · exact keeps_raise e

/-- The status that is found of the job of a task is one that its stored record allows. -/
theorem keeps_jobTaskStatus {record : TaskRecord φ} (hheld : record.HeldIn s)
    (hcomp : record.projection.completedResult = none)
    (herr : record.projection.protocolError = none) :
    Keeps surroundings (onOk (StatusOf record)) (jobTaskStatus record) s := by
  have hunsettled : record.projection.isSettled = false := by
    rw [TaskProjection.isSettled, hcomp, herr]
    rfl
  refine keeps_bind keeps_jobStatus ?_
  rintro job t ⟨hgrow, hsound'⟩
  split
  · rename_i hcan
    have hproj : relayStateProjection job.state.value = .ok (.cancelled, none) := by
      rw [hcan]
      rfl
    rw [hproj]
    exact keeps_pure ⟨rfl, fun h => absurd h Bool.false_ne_true, fun h => absurd h Bool.false_ne_true⟩
  · split
    · rename_i hrunning
      rw [relayStateProjection_state (by simpa using hrunning)]
      exact keeps_pure ⟨rfl, fun h => absurd h Bool.false_ne_true, fun _ => hunsettled⟩
    · refine keeps_bind (keeps_completeTask (hheld.grows hgrow) hsound' hcomp) ?_
      exact fun final t' hsettled => keeps_resultStatus (fun _ => ⟨_, rfl, rfl, rfl⟩) hsettled

/-- **A status that is returned for a stored record** says what is so. -/
theorem keeps_taskStatus {record : TaskRecord φ} (hstored : s record.taskId = some record)
    (hsound : s.Sound) : Keeps surroundings (onOk (StatusOf record)) (taskStatus record) s := by
  have hheld := heldIn_of_stored hstored
  have hval := (hsound _ _ hstored).2.2.valid
  unfold taskStatus
  split
  · rename_i error herr
    have hsettled : record.projection.isSettled = true := by
      rw [TaskProjection.isSettled, herr]
      exact Bool.or_true _
    exact keeps_pure ⟨rfl, fun _ => hheld.isSettled hsettled, fun h => absurd h Bool.false_ne_true⟩
  · rename_i herr
    split
    · rename_i hwait
      refine keeps_pure ⟨rfl, fun h => absurd h Bool.false_ne_true, fun _ => ?_⟩
      rw [TaskProjection.isSettled, herr, Option.isSome_none, Bool.or_false]
      by_contra hres
      have hnot := TaskProjection.isValid.not_waiting hval (Bool.not_eq_false _ ▸ hres)
      rw [hwait] at hnot
      cases hnot
    · split
      · rename_i result hres
        refine keeps_resultStatus (fun _ => ⟨_, rfl, rfl, rfl⟩) (hheld.isSettled ?_)
        rw [TaskProjection.isSettled, hres]
        rfl
      · rename_i hres
        exact keeps_jobTaskStatus hheld hres herr

/-! ### Runs -/

/-- What a client gets back. -/
inductive TaskReport (φ : Type) where
  | created (task : Option (TaskRecord φ))
  | status (result : GetTaskResult φ)
  | answered

/-- What a client asks for. -/
inductive TaskRequest (φ : Type) where
  | createTask (profile : String) (tool : RelayTool) (arguments : Fields (Number φ))
    (structured : Option (Fields (Number φ))) (context : Option (InputContext φ))
  | taskStatus (taskId : DurableRecordId)
  | updateTask (taskId : DurableRecordId) (responses : JsonDict (Number φ))

/-- The program of a request: `create_task`, and `tasks/get` and `tasks/update`, which read the
record first. -/
def TaskRequest.program : TaskRequest φ → TaskProgram φ (TaskReport φ)
  | .createTask profile tool arguments structured context => do
    let task ← McpTasks.createTask profile tool arguments structured context
    pure (.created task)
  | .taskStatus taskId => do
    let record ← Queue.getMcpTask taskId
    let result ← McpTasks.taskStatus record
    pure (.status result)
  | .updateTask taskId responses => do
    let record ← Queue.getMcpTask taskId
    McpTasks.updateTask record responses
    pure .answered

/-- The directory and the clients. -/
abbrev TaskWorld (φ : Type) : Type :=
  Interleaving.World (TaskOp φ) TaskOp.Answer TaskError (TaskReport φ) (Tasks φ)

/-- The program of some request. -/
def IsRequest (m : TaskProgram φ (TaskReport φ)) : Prop :=
  ∃ request : TaskRequest φ, m = request.program

/-- One step of the clients. -/
abbrev TaskStep (surroundings : Surroundings φ) : TaskWorld φ → TaskWorld φ → Prop :=
  Interleaving.Step (handler surroundings) IsRequest

/-- What the clients can make of an empty directory. -/
def TaskReachable (surroundings : Surroundings φ) (w : TaskWorld φ) : Prop :=
  Interleaving.Reachable (handler surroundings) IsRequest (fun _ => none) w

/-- What a report says of the directory when the client began, and from the report on. -/
def TaskReport.TellsTruth (begun : Tasks φ) (report : TaskReport φ) (now : Tasks φ) : Prop :=
  match report with
  | .status result => (result.isFinal = true → now.IsSettled result.taskId) ∧
    (result.isOpen = true → ¬ begun.IsSettled result.taskId)
  | .created _ | .answered => True

/-- Whatever a client asks for, what it is told is true of the tasks, and every task only grows. -/
theorem TaskRequest.keeps (request : TaskRequest φ) :
    Keeps surroundings (onOk (TaskReport.TellsTruth s)) request.program s := by
  cases request with
  | createTask =>
    exact keeps_bind keeps_createTask fun _ _ _ => keeps_pure trivial
  | updateTask =>
    refine keeps_getMcpTask onOk_error fun t record _ _ hrec _ => ?_
    exact keeps_bind (keeps_updateAttempts (heldIn_of_stored hrec)) fun _ _ _ =>
      keeps_pure trivial
  | taskStatus =>
    refine keeps_getMcpTask onOk_error fun t record hsound hgrow hrec _ => ?_
    refine keeps_bind (keeps_taskStatus hrec hsound) fun result t' hstat => keeps_pure ?_
    refine ⟨fun hfinal => hstat.taskId ▸ hstat.settled hfinal, fun hopen hbegun => ?_⟩
    -- the record was settled when the client began, and so it was when the client read it
    obtain ⟨stored, hstored, hsettled⟩ := hbegun.grows hgrow
    rw [hstat.taskId, hrec] at hstored
    cases hstored
    rw [hstat.unsettled hopen] at hsettled
    cases hsettled

theorem rules (surroundings : Surroundings φ) :
    Interleaving.Rules (handler surroundings) IsRequest Tasks.Sound Tasks.Grows
      (fun begun => onOk (TaskReport.TellsTruth begun)) where
  refl := .refl
  trans _ _ _ := .trans
  stable := by
    intro begun result a b htruth hgrow report hrep
    have h := htruth report hrep
    cases report with
    | created => trivial
    | answered => trivial
    | status => exact ⟨fun hfinal => (h.1 hfinal).grows hgrow, h.2⟩
  starts := by
    rintro m ⟨request, rfl⟩ s -
    exact request.keeps

omit [McpTypes φ] in
theorem sound_none : Tasks.Sound (fun _ => none : Tasks φ) := by
  intro taskId record h
  cases h

/-- What the clients keep of an empty directory, and from any state on. -/
theorem TaskReachable.sound {w w' : TaskWorld φ} (hw : TaskReachable surroundings w)
    (hrun : Relation.ReflTransGen (TaskStep surroundings) w w') :
    Interleaving.Sound (handler surroundings) Tasks.Sound Tasks.Grows
        (fun begun => onOk (TaskReport.TellsTruth begun)) w ∧
      Tasks.Sound w'.store ∧ w.store.Grows w'.store := by
  have hsound := ((Interleaving.sound_fresh sound_none).run (rules surroundings) hw).1
  obtain ⟨hsound', hgrow⟩ := hsound.run (rules surroundings) hrun
  exact ⟨hsound, hsound'.store, hgrow⟩

/-- From one projection of a task to a later one: keys are issued, what was answered has the same
answer and is not asked for again, the leg rises by one at most, and a result stays. -/
structure TaskProjection.MovesForward (p p' : TaskProjection φ) : Prop where
  issued : p.issuedInputKeys <+: p'.issuedInputKeys
  round : ∀ round, p.inputRound = some round → ∃ round', p'.inputRound = some round' ∧
    round.leg ≤ round'.leg ∧ round'.leg ≤ round.leg + 1 ∧
    ∀ key value, round.answered.fields.lookup key = some value →
      round'.answered.fields.lookup key = some value ∧ key ∉ round'.asked
  completedResult : ∀ result, p.completedResult = some result → p'.completedResult = some result

omit [McpTypes φ] in
/-- A projection that continues another moves the task forward: issued inputs, answers and outcomes
are never taken back. -/
theorem TaskProjection.Continues.movesForward {p p' : TaskProjection φ} (h : p.Continues p')
    (hp : p.Sound) (hp' : p'.Sound) : p.MovesForward p' where
  issued := h.issued
  completedResult := h.completedResult
  round := by
    intro round hround
    obtain ⟨round', hround', hcont⟩ := h.round round hround
    refine ⟨round', hround', hcont.leg_le, ?_, fun key value hv => ?_⟩
    · have hleg := hp.leg round hround
      have hleg' := hp'.leg round' hround'
      unfold InputRound.OnLeg at hleg hleg'
      omega
    · have hkept := hcont.answers key value hv
      refine ⟨hkept, fun hasked => ?_⟩
      refine TaskProjection.isValid.not_answered hp'.valid hround' hasked ?_
      exact mem_keys_iff_lookup.2 (by rw [hkept]; exact Option.some_ne_none _)

/-- **Every run of the clients moves every task forward.**  What is stored is valid; between any two
states of a run a projection moves forward; and a client that asks after a task was reported
completed or failed is never told that it is worked on or needs input. -/
theorem task_runs_move_forward {w w' : TaskWorld φ} (hw : TaskReachable surroundings w)
    (hrun : Relation.ReflTransGen (TaskStep surroundings) w w') :
    (∀ taskId record, w.store taskId = some record →
      record.isValid = true ∧ ∃ record', w'.store taskId = some record' ∧
        record.projection.MovesForward record'.projection) ∧
    (∀ r ∈ w.returned, ∀ r' ∈ w.returned.take r.seen, ∀ status status',
      r.result = .ok (.status status) → r'.result = .ok (.status status') →
      status.taskId = status'.taskId → status'.isFinal = true → status.isOpen = false) := by
  obtain ⟨hsound, hsound', hgrow⟩ := hw.sound hrun
  constructor
  · intro taskId record hrec
    obtain ⟨htid, hj, hproj⟩ := hsound.store taskId record hrec
    obtain ⟨record', hrec', hheld⟩ := hgrow taskId record hrec
    refine ⟨?_, record', hrec',
      hheld.later.projection.movesForward hproj (hsound' taskId record' hrec').2.2⟩
    simp only [TaskRecord.isValid, hproj.valid, htid, hj, decide_true, Bool.and_self]
  · intro r hr r' hr' status status' hstat hstat' htid hfinal
    have hbegun := (hsound.returnedSeen r hr r' hr' _ hstat').1 hfinal
    have hopen := (hsound.returned r hr _ hstat).2
    rw [htid] at hopen
    exact Bool.eq_false_iff.2 fun h => hopen h hbegun

/-! ### A run -/

section

variable {t : Tasks φ}

omit [McpTypes φ]

theorem ends_require {condition : Bool} {e : TaskError} {β : Type} {f : Unit → TaskProgram φ β}
    {r : Except TaskError β} (hcondition : condition = true)
    (h : Proc.Ends (handler surroundings) (f ()) s r t) :
    Proc.Ends (handler surroundings) (require condition e >>= f) s r t := by
  subst hcondition
  exact h

/-- A program whose first part ends with a value. -/
theorem ends_bind_ok {α β : Type} {m : TaskProgram φ α} {f : α → TaskProgram φ β} {a : α}
    {r : Except TaskError β} {u : Tasks φ} (hm : Proc.Ends (handler surroundings) m s (.ok a) t)
    (hf : Proc.Ends (handler surroundings) (f a) t r u) :
    Proc.Ends (handler surroundings) (m >>= f) s r u :=
  Proc.ends_bind.2 (Or.inl ⟨a, t, hm, hf⟩)

theorem ends_getMcpTask (hstored : s record.taskId = some record)
    (hj : record.jobId = record.taskId) :
    Proc.Ends (handler surroundings) (Queue.getMcpTask record.taskId) s (.ok record) s :=
  .act ⟨(getMcpTask_eq_ok.2 ⟨hstored, rfl, hj⟩).symm, rfl⟩ (.done _ _)

theorem ends_update {p : TaskProjection φ} {state : Option JobState}
    (hfits : ∀ task, surroundings.recordFits task = true)
    (hstored : s record.taskId = some record) (hj : record.jobId = record.taskId)
    (hval : p.isValid = true) :
    Proc.Ends (handler surroundings)
      (Queue.updateMcpTaskProjection record.taskId p record.updatedAt state) s
      (.ok (.ok (record.updated p state (record.updatedAt + 1))))
      (s.write (record.updated p state (record.updatedAt + 1))) := by
  refine .act ⟨record.updatedAt + 1, ?_, ?_⟩ (.done _ _)
  · intro stored hstored'
    cases hstored.symm.trans hstored'
    exact Int.lt_succ _
  · rw [updateMcpTaskProjection_stored hstored hj hval (hfits _)]
    exact ⟨rfl, rfl⟩

end

/-- The record of a local job of which nothing is stored but the call. -/
structure TaskRecord.Fresh (record : TaskRecord φ) : Prop where
  jobId : record.jobId = record.taskId
  unrouted : (record.projection.initialResult.get "remote").isBool true = false
  protocolError : record.projection.protocolError = none
  inputRound : record.projection.inputRound = none
  completedResult : record.projection.completedResult = none

variable {record : TaskRecord φ} {job : JobStatus}
  {document final : Fields (Number φ)} {state : JobState}

section

variable (h : record.Fresh)

include h

omit [PyFloat φ] [McpTypes φ] in
theorem TaskRecord.Fresh.routeArguments_eq :
    routeArguments record = .ok [("job_id", .str record.jobId.value)] := by
  rw [routeArguments]
  exact if_neg (by rw [h.unrouted]; exact Bool.false_ne_true)

omit [McpTypes φ] in
theorem ends_jobStatus (hjob : surroundings.jobs record.jobId (.ok job)) :
    Proc.Ends (handler surroundings) (jobStatus record) s (.ok job) s := by
  rw [jobStatus, h.routeArguments_eq]
  refine ends_bind_ok (Proc.ends_ofExcept.2 ⟨rfl, rfl⟩) ?_
  rw [if_neg (by rw [h.unrouted]; exact Bool.false_ne_true)]
  exact .act ⟨hjob, rfl⟩ (.done _ _)

theorem TaskRecord.Fresh.taskStatus_eq : taskStatus record = jobTaskStatus record := by
  have hwait : record.projection.isWaiting = false := by
    rw [TaskProjection.isWaiting, h.inputRound]
    rfl
  simp only [taskStatus, h.protocolError, hwait, h.completedResult, Bool.false_eq_true, if_false]

/-- **A job that runs is reported as one that is worked on.** -/
theorem ends_status_working (hstored : s record.taskId = some record)
    (hjob : surroundings.jobs record.jobId (.ok job)) (hst : job.state.terminal = false) :
    ∃ result : GetTaskResult φ, result.taskId = record.taskId ∧ result.isOpen = true ∧
      Proc.Ends (handler surroundings) (TaskRequest.taskStatus record.taskId).program s
        (.ok (.status result)) s := by
  refine ⟨{ commonResult record .working with
    statusMessage := job.phaseMessage, lastUpdatedAt := job.updatedAt }, rfl, rfl, ?_⟩
  refine ends_bind_ok (ends_getMcpTask hstored h.jobId) (ends_bind_ok (t := s) ?_ (.done _ _))
  have hcan : job.state ≠ .canceled := fun h => by rw [h] at hst; cases hst
  rw [h.taskStatus_eq, jobTaskStatus]
  refine ends_bind_ok (ends_jobStatus h hjob) ?_
  rw [if_neg hcan, if_pos (by rw [hst]; rfl), relayStateProjection_state hst]
  exact .done _ _

theorem ends_terminalCompletedResult
    (hwaits : surroundings.waits [("job_id", .str record.jobId.value)] (.ok document))
    (hdoc : callToolResultDocument document = .ok final) :
    Proc.Ends (handler surroundings) (terminalCompletedResult record) s (.ok final) s := by
  rw [terminalCompletedResult, h.routeArguments_eq]
  refine ends_bind_ok (Proc.ends_ofExcept.2 ⟨rfl, rfl⟩) ?_
  refine ends_bind_ok (a := Except.ok document) (.act ⟨hwaits, rfl⟩ (.done _ _)) ?_
  refine ends_bind_ok (a := document) (Proc.ends_ofExcept.2 ⟨rfl, rfl⟩) ?_
  exact Proc.ends_ofExcept.2 ⟨hdoc.symm, rfl⟩

/-- The result of a job that ended is stored. -/
theorem ends_completeTask (hfits : ∀ task, surroundings.recordFits task = true)
    (hstored : s record.taskId = some record)
    (hwaits : surroundings.waits [("job_id", .str record.jobId.value)] (.ok document))
    (hdoc : callToolResultDocument document = .ok final)
    (hval : ({ record.projection with completedResult := some final } : TaskProjection φ).isValid = true) :
    ∃ t, Proc.Ends (handler surroundings) (completeTask record state) s (.ok final) t := by
  refine ⟨s.write (record.updated { record.projection with completedResult := some final }
    (some state) (record.updatedAt + 1)), ?_⟩
  refine ends_bind_ok (ends_terminalCompletedResult h hwaits hdoc) ?_
  exact ends_require hval (ends_bind_ok (ends_update hfits hstored h.jobId hval) (.done _ _))

/-- **A job that ended is reported completed**, when the document of its result fits. -/
theorem ends_status_completed (hfits : ∀ task, surroundings.recordFits task = true)
    (hstored : s record.taskId = some record)
    (hjob : surroundings.jobs record.jobId (.ok job)) (hterm : job.state.terminal = true)
    (hcan : job.state ≠ .canceled)
    (hwaits : surroundings.waits [("job_id", .str record.jobId.value)] (.ok document))
    (hdoc : callToolResultDocument document = .ok final)
    (hval : ({ record.projection with completedResult := some final } : TaskProjection φ).isValid = true) :
    ∃ (result : GetTaskResult φ) (t : Tasks φ), result.taskId = record.taskId ∧
      result.isFinal = true ∧
      Proc.Ends (handler surroundings) (TaskRequest.taskStatus record.taskId).program s
        (.ok (.status result)) t := by
  obtain ⟨isError, hproj⟩ := relayStateProjection_result final
  obtain ⟨t, hcompletes⟩ : ∃ t, Proc.Ends (handler surroundings) (completeTask record job.state) s
    (.ok final) t := ends_completeTask h hfits hstored hwaits hdoc hval
  refine ⟨{ commonResult record .completed with
    result := some final, statusMessage := some s!"Relay job {job.state.value}",
    lastUpdatedAt := job.updatedAt }, t, rfl, rfl, ?_⟩
  refine ends_bind_ok (ends_getMcpTask hstored h.jobId) (ends_bind_ok (t := t) ?_ (.done _ _))
  rw [h.taskStatus_eq, jobTaskStatus]
  refine ends_bind_ok (ends_jobStatus h hjob) ?_
  rw [if_neg hcan, if_neg (by rw [hterm]; exact Bool.false_ne_true)]
  refine ends_bind_ok hcompletes ?_
  rw [hproj]
  exact .done _ _

end

omit [McpTypes φ] in
theorem ends_newTaskRecord {taskId : DurableRecordId} {p : TaskProjection φ}
    (createdAt updatedAt : Int) :
    Proc.Ends (handler surroundings) (newTaskRecord taskId.value state p) s
      (.ok ⟨taskId, taskId, state, createdAt, updatedAt, p⟩) s := by
  refine .act (x := createdAt) rfl (.act (x := updatedAt) rfl ?_)
  show Proc.Ends _ (if h : isDurableRecordId taskId.value = true then _ else _) s _ s
  rw [dif_pos taskId.valid]
  exact .done _ _

omit [McpTypes φ] in
theorem ends_putMcpTask (hfits : ∀ task, surroundings.recordFits task = true)
    (hval : record.isValid = true) (hnone : s record.taskId = none) :
    Proc.Ends (handler surroundings) (Queue.putMcpTask record) s (.ok record) (s.write record) := by
  have hput : putMcpTask surroundings.recordFits surroundings.storageRoot s record =
      .ok (record, s.write record) :=
    putMcpTask_eq_ok.2 ⟨hval, Or.inl ⟨hnone, hfits _, rfl, rfl⟩⟩
  refine .act (x := .ok record) ?_ (.done _ _)
  show Returns (putMcpTask surroundings.recordFits surroundings.storageRoot s record) s _ _
  rw [hput]
  exact ⟨rfl, rfl⟩

/-- A call whose job is queued gets a new record. -/
theorem ends_createTask {profile : String} {tool : RelayTool}
    {arguments receipt : Fields (Number φ)} {context : Option (InputContext φ)}
    (taskId : DurableRecordId) (createdAt updatedAt : Int)
    (hfits : ∀ task, surroundings.recordFits task = true)
    (hreceipt : receiptOf (some receipt) = some (receipt, taskId.value, state))
    (hargs : byteLength (Value.dumps (.dict arguments)) ≤ maxArgumentBytes)
    (hval : (initialProjection profile tool arguments receipt).isValid = true)
    (hst : state.terminal = false) (hnone : s taskId = none)
    (hinput : agentInputEnabled tool.name arguments = false) :
    ∃ record, record = ⟨taskId, taskId, state, createdAt, updatedAt,
        initialProjection profile tool arguments receipt⟩ ∧
      Proc.Ends (handler surroundings)
        (createTask profile tool arguments (some receipt) context) s (.ok (some record))
        (s.write record) := by
  refine ⟨_, rfl, ?_⟩
  have hresolved : resolvedProjection taskId.value state
      (initialProjection profile tool arguments receipt) =
      pure (initialProjection profile tool arguments receipt) := by
    rw [resolvedProjection, hst]
    rfl
  have hrec : (⟨taskId, taskId, state, createdAt, updatedAt,
      initialProjection profile tool arguments receipt⟩ : TaskRecord φ).isValid = true := by
    simp only [TaskRecord.isValid, hval, decide_true, Bool.and_self]
  rw [createTask, hreceipt]
  refine ends_require (decide_eq_true hargs) (ends_require hval ?_)
  rw [hresolved]
  refine ends_bind_ok (Proc.ends_pure.2 ⟨rfl, rfl⟩) ?_
  refine ends_bind_ok (ends_newTaskRecord createdAt updatedAt) ?_
  refine ends_bind_ok (ends_putMcpTask hfits hrec hnone) ?_
  have hparked : parkedTask tool arguments context (⟨taskId, taskId, state, createdAt, updatedAt,
      initialProjection profile tool arguments receipt⟩ : TaskRecord φ) = pure ⟨taskId, taskId, state,
        createdAt, updatedAt, initialProjection profile tool arguments receipt⟩ :=
    if_neg (by rw [hinput]; exact Bool.false_ne_true)
  rw [hparked]
  exact .done _ _

end

/-! ### A status that is late -/

/-- The JSON of `mcp_types`, without what is optional. -/
@[reducible]
def sampleMcpTypes : McpTypes Int where
  callToolResult text structured isError :=
    some [("content", .list [.dict [("type", .str "text"), ("text", .str text)]]),
      ("structuredContent", .dict structured), ("isError", .bool isError)]
  elicitRequest message schema :=
    [("method", .str "elicitation/create"),
      ("params", .dict [("message", .str message), ("requestedSchema", .dict schema)])]
  elicitResult value :=
    match value with
    | .dict answer =>
      match Fields.get answer "action", Fields.get answer "content" with
      | .str action, .dict content => some ⟨action, some content⟩
      | .str action, _ => some ⟨action, none⟩
      | _, _ => none
    | _ => none

theorem sampleTaskId_valid : isDurableRecordId "job-1" = true := by decide

/-- The id of a task. -/
def sampleTaskId : DurableRecordId := ⟨"job-1", sampleTaskId_valid⟩

/-- The receipt of its job, which is queued. -/
def sampleReceipt : Fields (Number Int) := [("job_id", .str "job-1"), ("state", .str "queued")]

/-- Its record. -/
def sampleTask : TaskRecord Int :=
  ⟨sampleTaskId, sampleTaskId, .queued, 0, 0,
    initialProjection "admin" ⟨"relay_submit_job", none⟩ [] sampleReceipt⟩

/-- The result document of its job. -/
def sampleDocument : Fields (Number Int) := [("job", .dict [("state", .str "succeeded")])]

/-- Its job runs when one client asks, and has succeeded when another one does. -/
def sampleSurroundings : Surroundings Int where
  storageRoot := "/relay"
  recordFits _ := true
  waits _ answer := answer = .ok sampleDocument
  reports _ _ := False
  jobs _ answer := answer = .ok ⟨.running, none, 1, none⟩ ∨ answer = .ok ⟨.succeeded, none, 2, none⟩

theorem sampleTask_fresh : sampleTask.Fresh := ⟨rfl, by decide, rfl, rfl, rfl⟩

theorem sample_created :
    let _ := sampleFloat
    let _ := sampleMcpTypes
    Proc.Ends (handler sampleSurroundings)
      (TaskRequest.createTask "admin" ⟨"relay_submit_job", none⟩ [] (some sampleReceipt)
        none).program (fun _ => none) (.ok (.created (some sampleTask)))
      (Tasks.write (fun _ => none) sampleTask) := by
  intro _ _
  have hreceipt : receiptOf (some sampleReceipt) = some (sampleReceipt, sampleTaskId.value,
    JobState.queued) := by decide +kernel
  have hargs : byteLength (Value.dumps (.dict ([] : Fields (Number Int)))) ≤
    maxArgumentBytes := by decide +kernel
  have hval : (initialProjection "admin" ⟨"relay_submit_job", none⟩ [] sampleReceipt).isValid =
    true := by decide +kernel
  have hnone : (fun _ => none : Tasks Int) sampleTaskId = none := rfl
  obtain ⟨record, rfl, hends⟩ : ∃ record, record = sampleTask ∧
      Proc.Ends (handler sampleSurroundings)
        (createTask "admin" ⟨"relay_submit_job", none⟩ [] (some sampleReceipt) none)
        (fun _ => none) (.ok (some record)) (Tasks.write (fun _ => none) record) :=
    ends_createTask sampleTaskId 0 0 (fun _ => rfl) hreceipt hargs hval rfl hnone rfl
  exact ends_bind_ok hends (.done _ _)

/-- When its job has succeeded it is reported completed. -/
theorem sample_completed :
    let _ := sampleFloat
    let _ := sampleMcpTypes
    ∃ (result : GetTaskResult Int) (t : Tasks Int), result.taskId = sampleTaskId ∧
      result.isFinal = true ∧
      Proc.Ends (handler sampleSurroundings) (TaskRequest.taskStatus sampleTaskId).program
        (Tasks.write (fun _ => none) sampleTask) (.ok (.status result)) t := by
  intro _ _
  have hfinal : ∃ final, callToolResultDocument sampleDocument = .ok final ∧
      ({ sampleTask.projection with completedResult := some final } :
        TaskProjection Int).isValid = true :=
    ⟨_, rfl, by decide +kernel⟩
  obtain ⟨final, hdoc, hval⟩ := hfinal
  exact ends_status_completed sampleTask_fresh (fun _ => rfl) write_self (Or.inr rfl) rfl (by decide) rfl hdoc hval

/-- The directory once the task is made. -/
def sampleWorld : TaskWorld Int :=
  ⟨Tasks.write (fun _ => none) sampleTask, [],
    [⟨fun _ => none, 0, .ok (.created (some sampleTask))⟩]⟩

theorem sample_reachable :
    let _ := sampleFloat
    let _ := sampleMcpTypes
    TaskReachable sampleSurroundings sampleWorld := by
  intro _ _
  exact (Interleaving.run_alone ⟨_, rfl⟩ sample_created).trans Interleaving.run_return

/-- A client asks after the made task, and is told that it is completed. -/
theorem task_runs_move_forward_sample :
    let _ := sampleFloat
    let _ := sampleMcpTypes
    ∃ w' : TaskWorld Int, (∃ status, status.isFinal = true ∧
        ∃ r ∈ w'.returned, r.result = .ok (.status status)) ∧
      ∃ record, w'.store sampleTaskId = some record ∧
        sampleTask.projection.MovesForward record.projection := by
  intro _ _
  obtain ⟨status, t, -, hfinal, hends⟩ := sample_completed
  have hrun : Relation.ReflTransGen (TaskStep sampleSurroundings) sampleWorld _ :=
    (Interleaving.run_alone ⟨_, rfl⟩ hends).trans Interleaving.run_return
  obtain ⟨-, record, hrec, hforward⟩ :=
    (task_runs_move_forward sample_reachable hrun).1 sampleTaskId sampleTask rfl
  exact ⟨_, ⟨status, hfinal, _, List.mem_append_right _ (List.mem_singleton.2 rfl), rfl⟩, record,
    hrec, hforward⟩

/-- **A status may be late.**  A client that read the job while it ran reports the task as one that
is worked on after another client reported it completed. -/
theorem late_status_reported :
    ¬ ∀ (surroundings : Surroundings Int) (w : TaskWorld Int),
      @TaskReachable Int sampleFloat sampleMcpTypes surroundings w →
      ∀ (i j : Nat) (r r' : Interleaving.Returned TaskError (TaskReport Int) (Tasks Int)), i < j →
      w.returned[i]? = some r' → w.returned[j]? = some r →
      ∀ status status' : GetTaskResult Int, r.result = .ok (.status status) →
      r'.result = .ok (.status status') → status.taskId = status'.taskId →
      status'.isFinal = true → status.isOpen = false := by
  let _ := sampleFloat
  let _ := sampleMcpTypes
  intro hnever
  obtain ⟨early, hearly, hopen, hworks⟩ :=
    @ends_status_working _ _ _ sampleSurroundings _ _ _ sampleTask_fresh write_self (Or.inl rfl) rfl
  obtain ⟨final, t, hfinal, hsettled, hends⟩ := sample_completed
  -- the first client has its status, and has not returned it when the second one does
  have hrun : Relation.ReflTransGen (TaskStep sampleSurroundings) sampleWorld _ :=
    (Interleaving.run_alone ⟨_, rfl⟩ hworks).trans <|
      (Interleaving.run_alone ⟨_, rfl⟩ hends).trans <|
        Interleaving.run_return.trans Interleaving.run_return
  have hclosed := hnever sampleSurroundings _ (sample_reachable.trans hrun) 1 2 _ _ (by decide) rfl
    rfl early final rfl rfl (hearly.trans hfinal.symm) hsettled
  rw [hopen] at hclosed
  cases hclosed

end ClioQueue.McpTasks
