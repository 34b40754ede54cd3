/-
# Clients of the task records

Any number of clients act on the directory of task records, and the readings of the clock increase
from one write of a record to the next.  A client works on a copy of the record that may be old.
The copy has the `updated_at` of the stored record only when it is the stored record
(`Durable.Held`), so that every write moves the stored projection forward (`keeps_update`); so do
`create_task` and `update_task`, with all their attempts.
-/

import ClioQueue.Durable.CompareAndSet
import ClioQueue.McpTasks.TaskHistory

namespace ClioQueue.McpTasks

open Durable Wire

variable {φ : Type}

/-- What the runtime is given from outside: the storage root, whether the indented JSON of a record
has at most 1,048,576 bytes, and what `wait_mcp_job`, `status_mcp_job` and `get_job` may answer. -/
structure Surroundings (φ : Type) where
  storageRoot : String
  recordFits : TaskRecord φ → Bool
  waits : Fields (Number φ) → Except TaskError (Fields (Number φ)) → Prop
  reports : Fields (Number φ) → Except TaskError (Option JobStatus) → Prop
  jobs : DurableRecordId → Except TaskError JobStatus → Prop

/-- The answer of an operation of the queue, and the directory it leaves. -/
def Returns (result : Except TaskError (TaskRecord φ × Tasks φ)) (tasks : Tasks φ)
    (answer : Except TaskError (TaskRecord φ)) (tasks' : Tasks φ) : Prop :=
  match result with
  | .ok (record, written) => answer = .ok record ∧ tasks' = written
  | .error e => answer = .error e ∧ tasks' = tasks

/-- The actions; a write reads a clock that is past the last write of the record. -/
def handler [PyFloat φ] (surroundings : Surroundings φ) :
    Proc.Handler (TaskOp φ) TaskOp.Answer (Tasks φ)
  | .utcNow, tasks, _, tasks' => tasks' = tasks
  | .putMcpTask task, tasks, answer, tasks' =>
    Returns (putMcpTask surroundings.recordFits surroundings.storageRoot tasks task) tasks answer
      tasks'
  | .updateMcpTaskProjection taskId projection expectedUpdatedAt state, tasks, answer, tasks' =>
    ∃ now, (∀ stored, tasks taskId = some stored → stored.updatedAt < now) ∧
      Returns (updateMcpTaskProjection surroundings.recordFits surroundings.storageRoot tasks taskId
        projection (some expectedUpdatedAt) state now) tasks answer tasks'
  | .getMcpTask taskId, tasks, answer, tasks' => answer = getMcpTask tasks taskId ∧ tasks' = tasks
  | .waitMcpJob route, tasks, answer, tasks' => surroundings.waits route answer ∧ tasks' = tasks
  | .statusMcpJob route, tasks, answer, tasks' =>
    surroundings.reports route answer ∧ tasks' = tasks
  | .getJob jobId, tasks, answer, tasks' => surroundings.jobs jobId answer ∧ tasks' = tasks

/-- A later record of the same task. -/
structure TaskRecord.Continues (record record' : TaskRecord φ) : Prop where
  taskId : record'.taskId = record.taskId
  projection : record.projection.Continues record'.projection

/-- A copy of a record, perhaps an old one. -/
def TaskRecord.HeldIn (tasks : Tasks φ) (copy : TaskRecord φ) : Prop :=
  ∃ stored, tasks copy.taskId = some stored ∧
    Held TaskRecord.updatedAt TaskRecord.Continues stored copy

/-- The directory after some writes. -/
def Tasks.Grows (tasks tasks' : Tasks φ) : Prop :=
  ∀ taskId record, tasks taskId = some record → ∃ record', tasks' taskId = some record' ∧
    Held TaskRecord.updatedAt TaskRecord.Continues record' record

/-- What holds of the directory. -/
def Tasks.Sound [PyFloat φ] (tasks : Tasks φ) : Prop :=
  ∀ taskId record, tasks taskId = some record →
    record.taskId = taskId ∧ record.jobId = taskId ∧ record.projection.Sound

/-- A task whose outcome is stored. -/
def Tasks.IsSettled (tasks : Tasks φ) (taskId : DurableRecordId) : Prop :=
  ∃ record, tasks taskId = some record ∧ record.projection.isSettled = true

/-! ### Growth -/

variable {tasks tasks' tasks'' : Tasks φ} {record copy : TaskRecord φ} {taskId : DurableRecordId}

theorem TaskRecord.Continues.refl (record : TaskRecord φ) : record.Continues record :=
  ⟨rfl, .refl _⟩

theorem TaskRecord.Continues.trans {a b c : TaskRecord φ} (h : a.Continues b)
    (h' : b.Continues c) : a.Continues c :=
  ⟨h'.taskId.trans h.taskId, h.projection.trans h'.projection⟩

theorem held_record (record : TaskRecord φ) :
    Held TaskRecord.updatedAt TaskRecord.Continues record record :=
  held_self TaskRecord.Continues.refl record

theorem Tasks.Grows.refl (tasks : Tasks φ) : tasks.Grows tasks :=
  fun _ record h => ⟨record, h, held_record record⟩

theorem Tasks.Grows.trans (h : tasks.Grows tasks') (h' : tasks'.Grows tasks'') :
    tasks.Grows tasks'' := by
  intro taskId record hrec
  obtain ⟨record', hrec', hheld⟩ := h taskId record hrec
  obtain ⟨record'', hrec'', hheld'⟩ := h' taskId record' hrec'
  exact ⟨record'', hrec'', hheld.trans (fun _ _ _ => .trans) hheld'⟩

/-- A copy is a copy of the later record too. -/
theorem TaskRecord.HeldIn.grows (h : copy.HeldIn tasks) (hgrow : tasks.Grows tasks') :
    copy.HeldIn tasks' := by
  obtain ⟨stored, hstored, hheld⟩ := h
  obtain ⟨stored', hstored', hheld'⟩ := hgrow _ stored hstored
  exact ⟨stored', hstored', hheld.trans (fun _ _ _ => .trans) hheld'⟩

theorem Tasks.IsSettled.grows (h : tasks.IsSettled taskId) (hgrow : tasks.Grows tasks') :
    tasks'.IsSettled taskId := by
  obtain ⟨record, hrec, hsettled⟩ := h
  obtain ⟨record', hrec', hheld⟩ := hgrow taskId record hrec
  exact ⟨record', hrec', hheld.later.projection.isSettled hsettled⟩

theorem TaskRecord.HeldIn.isSettled (h : copy.HeldIn tasks)
    (hsettled : copy.projection.isSettled = true) : tasks.IsSettled copy.taskId := by
  obtain ⟨stored, hstored, hheld⟩ := h
  exact ⟨stored, hstored, hheld.later.projection.isSettled hsettled⟩

theorem heldIn_of_stored (h : tasks record.taskId = some record) : record.HeldIn tasks :=
  ⟨record, h, held_record record⟩

/-- A record written over an earlier one, or where there is none. -/
theorem Tasks.grows_write (h : ∀ stored, tasks record.taskId = some stored →
    stored.Continues record ∧ stored.updatedAt < record.updatedAt) :
    tasks.Grows (tasks.write record) := by
  intro taskId stored hstored
  by_cases htid : taskId = record.taskId
  · subst htid
    obtain ⟨hcont, hstamp⟩ := h stored hstored
    exact ⟨record, Function.update_self .., (held_record stored).write (fun _ _ _ => .trans)
      hcont hstamp⟩
  · exact ⟨stored, by rw [Tasks.write, Function.update_of_ne htid, hstored], held_record stored⟩

theorem Tasks.Sound.write [PyFloat φ] (h : tasks.Sound) (hj : record.jobId = record.taskId)
    (hproj : record.projection.Sound) : (tasks.write record).Sound := by
  intro taskId stored hstored
  by_cases htid : taskId = record.taskId
  · subst htid
    rw [Tasks.write, Function.update_self] at hstored
    cases hstored
    exact ⟨rfl, hj, hproj⟩
  · rw [Tasks.write, Function.update_of_ne htid] at hstored
    exact h taskId stored hstored

theorem write_self : tasks.write record record.taskId = some record := Function.update_self ..

/-! ### What the actions keep -/

/-- A result that says nothing of an error. -/
abbrev onOk {α : Type} (Q : α → Tasks φ → Prop) (result : Except TaskError α) (t : Tasks φ) : Prop :=
  ∀ a, result = .ok a → Q a t

theorem onOk_error {α : Type} {Q : α → Tasks φ → Prop} (e : TaskError) (t : Tasks φ) :
    onOk Q (.error e : Except TaskError α) t := by
  intro a h
  cases h

theorem onOk_ok {α : Type} {Q : α → Tasks φ → Prop} {a : α} {t : Tasks φ} (h : Q a t) :
    onOk Q (.ok a : Except TaskError α) t := by
  intro b hb
  cases hb
  exact h

section

variable [PyFloat φ] {surroundings : Surroundings φ} {α β : Type} {s : Tasks φ}
  {Q : Except TaskError β → Tasks φ → Prop}

/-- What a program keeps among the clients. -/
abbrev Keeps (surroundings : Surroundings φ) (Q : Except TaskError β → Tasks φ → Prop)
    (m : TaskProgram φ β) (s : Tasks φ) : Prop :=
  m.Keeps (handler surroundings) Tasks.Sound Tasks.Grows Q s

/-- An action that leaves the directory as it is. -/
theorem keeps_reading {op : TaskOp φ} {f : op.Answer → TaskProgram φ β}
    (hreading : ∀ t x t', handler surroundings op t x t' → t' = t)
    (h : ∀ t x, t.Sound → s.Grows t → handler surroundings op t x t →
      Keeps surroundings Q (f x) t) :
    Keeps surroundings Q (act op >>= f) s := by
  refine Proc.keeps_perform fun t hsound hgrow x t' hx => ?_
  cases hreading t x t' hx
  exact ⟨⟨hsound, .refl t⟩, h t x hsound hgrow hx⟩

theorem keeps_ofExcept {x : Except TaskError α} {f : α → TaskProgram φ β}
    (hok : ∀ a, x = .ok a → Keeps surroundings Q (f a) s)
    (herr : ∀ e, x = .error e → Q (.error e) s) :
    Keeps surroundings Q (Proc.ofExcept x >>= f) s := by
  rcases x with e | a
  · exact herr e rfl
  · exact hok a rfl

theorem keeps_getMcpTask {f : TaskRecord φ → TaskProgram φ β} (hother : ∀ e t, Q (.error e) t)
    (h : ∀ t record, t.Sound → s.Grows t → t record.taskId = some record →
      record.taskId = taskId → Keeps surroundings Q (f record) t) :
    Keeps surroundings Q (Queue.getMcpTask taskId >>= f) s := by
  refine Proc.Keeps.bind (keeps_reading (fun t x t' hx => hx.2) fun t x hsound hgrow hx => ?_)
  rcases x with e | record
  · exact hother e t
  · obtain ⟨hrec, htid, -⟩ := getMcpTask_eq_ok.1 hx.1.symm
    exact h t record hsound hgrow (htid ▸ hrec) htid

/-- **A write under the stamp of the record that was read** moves the projection forward, when the
written one continues the one that was read. -/
theorem keeps_update {candidate : TaskRecord φ} {projection : TaskProjection φ}
    {state : Option JobState} {f : Except TaskError (TaskRecord φ) → TaskProgram φ β}
    (hheld : candidate.HeldIn s)
    (hforward : candidate.projection.Sound → projection.isValid = true →
      candidate.projection.Continues projection ∧ projection.Sound)
    (hok : ∀ t record, t.Sound → s.Grows t → t record.taskId = some record →
      record.taskId = candidate.taskId → record.projection = projection →
      Keeps surroundings Q (f (.ok record)) t)
    (herr : ∀ t e, t.Sound → s.Grows t → Keeps surroundings Q (f (.error e)) t) :
    Keeps surroundings Q
      (Queue.updateMcpTaskProjection candidate.taskId projection candidate.updatedAt state >>= f)
      s := by
  refine Proc.keeps_perform fun t hsound hgrow x t' hx => ?_
  obtain ⟨now, hnow, hret⟩ := hx
  cases hres : updateMcpTaskProjection surroundings.recordFits surroundings.storageRoot t
      candidate.taskId projection (some candidate.updatedAt) state now with
  | error e =>
    rw [hres] at hret
    obtain ⟨rfl, rfl⟩ := hret
    exact ⟨⟨hsound, .refl _⟩, herr _ e hsound hgrow⟩
  | ok result =>
    obtain ⟨record, _⟩ := result
    rw [hres] at hret
    obtain ⟨rfl, rfl⟩ := hret
    obtain ⟨hval, stored, hstored, -, hj, hexp, rfl, -, rfl⟩ :=
      updateMcpTaskProjection_eq_ok.1 hres
    -- the copy has the stamp of the stored record, so that it is the stored record
    have hsame : candidate = stored := by
      obtain ⟨_, hstored', hcopy⟩ := hheld.grows hgrow
      cases hstored.symm.trans hstored'
      exact hcopy.eq_of_stamp (hexp _ rfl).symm
    subst hsame
    obtain ⟨-, -, hproj⟩ := hsound _ _ hstored
    obtain ⟨hcont, hnext⟩ := hforward hproj hval
    have hgrow' : t.Grows (t.write (candidate.updated projection state now)) := by
      refine Tasks.grows_write fun stored hstored' => ?_
      cases hstored.symm.trans hstored'
      exact ⟨⟨rfl, hcont⟩, hnow _ hstored⟩
    have hsound' : (t.write (candidate.updated projection state now)).Sound :=
      hsound.write hj hnext
    exact ⟨⟨hsound', hgrow'⟩, hok _ _ hsound' (hgrow.trans hgrow') write_self rfl rfl⟩

/-- A record is created, or the one of the same call is returned. -/
theorem keeps_putMcpTask {f : TaskRecord φ → TaskProgram φ β} (hother : ∀ e t, Q (.error e) t)
    (hround : record.projection.inputRound = none) (hj : record.jobId = record.taskId)
    (h : ∀ t saved, t.Sound → t saved.taskId = some saved → Keeps surroundings Q (f saved) t) :
    Keeps surroundings Q (Queue.putMcpTask record >>= f) s := by
  refine Proc.Keeps.bind (Proc.keeps_perform fun t hsound hgrow x t' hx => ?_)
  have hx : Returns (putMcpTask surroundings.recordFits surroundings.storageRoot t record) t x t' :=
    hx
  rcases hres : putMcpTask surroundings.recordFits surroundings.storageRoot t record with e | result
  · rw [hres] at hx
    obtain ⟨rfl, rfl⟩ := hx
    exact ⟨⟨hsound, .refl _⟩, hother e _⟩
  · obtain ⟨saved, _⟩ := result
    rw [hres] at hx
    obtain ⟨rfl, rfl⟩ := hx
    obtain ⟨hval, ⟨hnone, -, rfl, rfl⟩ | ⟨hstored, htid, -, -, rfl⟩⟩ :=
      putMcpTask_eq_ok.1 hres
    · have hproj : saved.projection.Sound := by
        refine ⟨(Bool.and_eq_true _ _ ▸ hval).1, fun round hsome => ?_⟩
        rw [hround] at hsome
        cases hsome
      have hsound' : (t.write saved).Sound := hsound.write hj hproj
      have hgrow' : t.Grows (t.write saved) :=
        Tasks.grows_write fun stored hstored => by rw [hnone] at hstored; cases hstored
      exact ⟨⟨hsound', hgrow'⟩, h _ saved hsound' write_self⟩
    · exact ⟨⟨hsound, .refl _⟩, h _ saved hsound (htid ▸ hstored)⟩

/-! ### What the programs keep -/

theorem keeps_bind {m : TaskProgram φ α} {f : α → TaskProgram φ β} {R : α → Tasks φ → Prop}
    {Q : β → Tasks φ → Prop} (hm : Keeps surroundings (onOk R) m s)
    (hf : ∀ a t, R a t → Keeps surroundings (onOk Q) (f a) t) :
    Keeps surroundings (onOk Q) (m >>= f) s := by
  refine Proc.Keeps.bind (hm.imp fun result t h => ?_)
  rcases result with e | a
  · exact onOk_error e t
  · exact hf a t (h a rfl)

theorem keeps_pure {Q : α → Tasks φ → Prop} {a : α} (h : Q a s) :
    Keeps surroundings (onOk Q) (pure a) s :=
  onOk_ok h

theorem keeps_raise {Q : α → Tasks φ → Prop} (e : TaskError) :
    Keeps surroundings (onOk Q) (Proc.raise e) s :=
  onOk_error e s

theorem keeps_require {condition : Bool} {e : TaskError} {f : Unit → TaskProgram φ β}
    {Q : β → Tasks φ → Prop}
    (h : condition = true → Keeps surroundings (onOk Q) (f ()) s) :
    Keeps surroundings (onOk Q) (require condition e >>= f) s :=
  keeps_ofExcept (fun _ hok => h (ensure_eq_ok.1 hok)) fun e _ => onOk_error e s

theorem keeps_newTaskRecord {jobId : String} {state : JobState} {p : TaskProjection φ} :
    Keeps surroundings (onOk fun record t => s.Grows t ∧ t.Sound ∧ record.projection = p ∧
      record.jobId = record.taskId) (newTaskRecord jobId state p) s := by
  refine keeps_reading (fun t x t' hx => hx) fun t x hsound hgrow _ => ?_
  refine keeps_reading (fun t x t' hx => hx) fun t' x' hsound' hgrow' _ => ?_
  split
  · exact keeps_pure ⟨hgrow.trans hgrow', hsound', rfl, rfl⟩
  · exact keeps_raise _

variable [McpTypes φ] {p : TaskProjection φ}
  {arguments : Fields (Number φ)} {state : JobState} {attempts : Nat}
  {context : Option (InputContext φ)} {tool : RelayTool} {jobId : String} {candidate : TaskRecord φ}

theorem keeps_terminalCompletedResult (hsound : s.Sound) :
    Keeps surroundings (fun _ t => s.Grows t ∧ t.Sound) (terminalCompletedResult record) s := by
  refine keeps_ofExcept (fun route _ => ?_) fun _ _ => ⟨.refl s, hsound⟩
  refine keeps_reading (fun t x t' hx => hx.2) fun t x hsound hgrow _ => ?_
  exact keeps_ofExcept (fun waited _ => (⟨hgrow, hsound⟩ : s.Grows t ∧ t.Sound))
    fun _ _ => ⟨hgrow, hsound⟩

theorem keeps_eagerProjection :
    Keeps surroundings (onOk fun completed t => s.Grows t ∧ t.Sound ∧
      completed.inputRound = p.inputRound) (eagerProjection jobId state p) s := by
  refine keeps_bind keeps_newTaskRecord ?_
  rintro _ t ⟨hgrow, hsound, -, -⟩
  refine keeps_bind (R := fun _ t => s.Grows t ∧ t.Sound) (Proc.Keeps.attempt
    ((keeps_terminalCompletedResult hsound).imp ?_)) ?_
  · rintro _ t' ⟨hgrow', hsound'⟩
    exact onOk_ok ⟨hgrow.trans hgrow', hsound'⟩
  · rintro _ t' ⟨hgrow', hsound'⟩
    exact keeps_require fun _ => keeps_pure ⟨hgrow', hsound', rfl⟩

/-- Retrying to park a task after a lost race keeps every record sound and lets it only grow. -/
theorem keeps_parkAttempts {context : InputContext φ} (hheld : candidate.HeldIn s) :
    Keeps surroundings (onOk fun _ _ => True) (parkAttempts context taskId attempts candidate)
      s := by
  induction attempts generalizing candidate s with
  | zero => exact keeps_raise _
  | succ attempts ih =>
    rw [parkAttempts]
    split
    · exact keeps_pure trivial
    · rename_i hround
      have hnone : candidate.projection.inputRound = none := by simpa using hround
      refine keeps_ofExcept (fun asked _ => ?_) fun e _ => onOk_error e s
      refine keeps_require fun _ => ?_
      refine keeps_update hheld (fun _ hval => continues_parkedProjection hnone hval)
        (fun t record _ _ _ _ _ => keeps_pure trivial) fun t e _ hgrow => ?_
      show Keeps surroundings _ (if e.isConflict then _ else _) t
      split
      · exact keeps_getMcpTask onOk_error fun t record _ _ hrec _ =>
          ih (heldIn_of_stored hrec)
      · exact keeps_raise e

/-- Retrying an update after a lost race keeps every record sound and lets it only grow, however
often it is retried. -/
theorem keeps_updateAttempts {responses : JsonDict (Number φ)} (hheld : candidate.HeldIn s) :
    Keeps surroundings (onOk fun _ _ => True) (updateAttempts taskId responses attempts candidate)
      s := by
  induction attempts generalizing candidate s with
  | zero => exact keeps_raise _
  | succ attempts ih =>
    rw [updateAttempts]
    split
    · exact keeps_pure trivial
    · rename_i current hround
      dsimp only
      split
      · exact keeps_pure trivial
      · rename_i hmatching
        simp only [Bool.or_eq_true, List.isEmpty_iff, not_or] at hmatching
        refine keeps_ofExcept (fun answered hanswered => ?_) fun e _ => onOk_error e s
        refine keeps_require fun _ => ?_
        have hmatched : ∀ key ∈ (responses.restrict current.asked.contains).fields.map Prod.fst,
            key ∈ current.asked := fun key hkey =>
          List.contains_iff_mem.1 (JsonDict.mem_keys_restrict.1 hkey).2
        refine keeps_update hheld (fun hsound hval => continues_answered hsound hround hmatched
          hmatching.1 hanswered hval) (fun t record _ _ _ _ _ => keeps_pure trivial)
          fun t e _ hgrow => ?_
        show Keeps surroundings _ (if e.isConflict then _ else _) t
        split
        · exact keeps_getMcpTask onOk_error fun t record _ _ hrec _ =>
            ih (heldIn_of_stored hrec)
        · exact keeps_raise e

theorem keeps_resolvedProjection :
    Keeps surroundings (onOk fun resolved _ => resolved.inputRound = p.inputRound)
      (resolvedProjection jobId state p) s := by
  unfold resolvedProjection
  split
  · exact keeps_eagerProjection.imp fun result t h a ha => (h a ha).2.2
  · exact keeps_pure rfl

theorem keeps_parkedTask {saved : TaskRecord φ} (hheld : saved.HeldIn s) :
    Keeps surroundings (onOk fun _ _ => True) (parkedTask tool arguments context saved) s := by
  unfold parkedTask
  split
  · rcases context with _ | context
    · exact keeps_raise _
    · exact keeps_parkAttempts hheld
  · exact keeps_pure trivial

/-- Creating a task keeps every record sound and lets it only grow, also if another client creates
it in between. -/
theorem keeps_createTask {profile : String} {structured : Option (Fields (Number φ))} :
    Keeps surroundings (onOk fun _ _ => True)
      (createTask profile tool arguments structured context) s := by
  unfold createTask
  split
  · exact keeps_pure trivial
  · refine keeps_require fun _ => keeps_require fun _ => ?_
    refine keeps_bind keeps_resolvedProjection fun projection t hround => ?_
    refine keeps_bind keeps_newTaskRecord ?_
    rintro _ _ ⟨-, -, rfl, hj⟩
    refine keeps_putMcpTask onOk_error hround hj fun t saved _ hsaved => ?_
    exact keeps_bind (keeps_parkedTask (heldIn_of_stored hsaved)) fun _ _ _ => keeps_pure trivial

end

end ClioQueue.McpTasks
