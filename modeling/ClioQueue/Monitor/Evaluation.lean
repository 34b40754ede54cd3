/-
# The evaluation of the rules

`evaluate_monitor_rules` in `clio_relay/relay_ops.py` over the records that it reads and writes.  An
`Evaluator` is a call on its way: `Evaluator.advance` is its next step, which makes at most one
durable write.  A rule is read when the records are scanned, without a lock; its events are drained
later; each action writes on its own; and then the whole record is written back.
-/

import ClioQueue.GlobalPaging
import ClioQueue.Monitor.Rules

namespace ClioQueue
namespace Monitor

/-- The records that the monitor reads and writes: the rules in the order of their creation, the
events of all jobs, the progress records, and the submitted jobs. -/
structure MonitorQueue where
  rules : List MonitorRule
  events : List RelayEvent
  progress : List ProgressRecord
  jobs : List (DurableRecordId × AgentJob)
  deriving DecidableEq

/-- An event to append: its job, type, message and payload. -/
structure Announcement where
  jobId : DurableRecordId
  eventType : String
  message : String
  payload : Dict
  deriving DecidableEq

/-- The event that is stored for an announcement. -/
def Announcement.event (a : Announcement) (seq : Nat) (now : Time) : RelayEvent where
  jobId := a.jobId
  seq := seq
  eventType := a.eventType
  message := a.message
  createdAt := now
  payload := a.payload

namespace MonitorQueue

variable (q : MonitorQueue)

/-- The event log of a job. -/
def log (jobId : DurableRecordId) : List RelayEvent := q.events.filter fun e => e.jobId = jobId

/-- `append_event`. -/
def appendEvent (a : Announcement) (now : Time) : MonitorQueue :=
  { q with events := q.events ++ [a.event ((q.log a.jobId).length + 1) now] }

/-- The record of `append_progress`, with the next sequence of its job. -/
def appendProgress (progress : ProgressRecord) : MonitorQueue :=
  { q with progress := q.progress ++ [{ progress with
      sequence := some ((q.progress.filter fun p => p.jobId = progress.jobId).length + 1) }] }

/-- The next events of a log, up to the limit. -/
def nextEvents (jobId : DurableRecordId) (nextSeq limit : Nat) : List RelayEvent :=
  ((q.log jobId).drop (nextSeq - 1)).take limit

/-- `drain_events`; the cursor moves past the events that it returns. -/
def drainEvents (jobId : DurableRecordId) (nextSeq limit : Nat) :
    Except RelayError (List RelayEvent) := do
  (q.nextEvents jobId nextSeq limit).forM validateLegacyOutputEventAccess
  pure (q.nextEvents jobId nextSeq limit)

/-- The record of a rule. -/
def rule? (ruleId : DurableRecordId) : Option MonitorRule := q.rules.find? fun r => r.ruleId = ruleId

/-- The record written by `update_monitor_rule`, in place. -/
def putRule (rule : MonitorRule) : MonitorQueue :=
  { q with rules := q.rules.map fun r => if r.ruleId = rule.ruleId then rule else r }

/-- `update_monitor_rule`: the record is not compared with the one it replaces. -/
def updateMonitorRule (rule : MonitorRule) : Except RelayError MonitorQueue :=
  match q.rule? rule.ruleId with
  | none => .error (.notFound s!"monitor rule not found: {rule.ruleId}")
  | some existing =>
    if existing.jobId = rule.jobId then .ok (q.putRule rule)
    else .error (.conflict s!"monitor rule cannot change job: {rule.ruleId}")

/-- `_ensure_job_queued_event`: the event of a submission, unless the job has a first event. -/
def queuedEvent (jobId : DurableRecordId) : List Announcement :=
  if (q.log jobId).isEmpty then [⟨jobId, "job.queued", "Job queued", []⟩] else []

/-- The record of `submit_job`, under a fresh id: a repeated key gives the job that has it. -/
def submitJob (job : AgentJob) (fresh : DurableRecordId) :
    Except RelayError (DurableRecordId × MonitorQueue) :=
  match q.jobs.find? fun e => e.2.idempotencyKey = job.idempotencyKey with
  | none => .ok (fresh, { q with jobs := q.jobs ++ [(fresh, job)] })
  | some existing =>
    if existing.2 = job then .ok (existing.1, q)
    else .error (.conflict "idempotency key already used for a different job")

end MonitorQueue

/-! ### A call on its way -/

/-- What the caller is told of one action. -/
structure ActionResult where
  ruleId : DurableRecordId
  action : MonitorRuleAction
  matchedSeq : Nat
  submittedJobId : Option DurableRecordId
  progressId : Option DurableRecordId
  deriving DecidableEq

/-- A rule that an evaluator has taken up: the record it has read, the cursor after the events it
has drained, the matches it has yet to act on, whether the rule is to be marked as triggered, the
events that the present action has yet to append, and what it has done for the rule. -/
structure Handling where
  rule : MonitorRule
  nextSeq : Nat
  nextSeq_pos : 1 ≤ nextSeq
  todo : List (RelayEvent × Match)
  fires : Bool
  announce : List Announcement
  results : List ActionResult

/-- Where a call is: it scans the rule records, of which it has passed `position`; or it has the
rules that it has yet to take up; or it has taken one up. -/
inductive Stage where
  | scanning (head position : Nat) (found : List MonitorRule)
  | between (rest : List MonitorRule)
  | handling (handled : Handling) (rest : List MonitorRule)

/-- A call of `evaluate_monitor_rules`. -/
structure Evaluator where
  limit : Nat
  stage : Stage
  results : List ActionResult

/-- What a step draws: a fresh id, the time, whether the scan begins a page, for which it reads the
head of the order again, and whether a durable write is refused (the admission of a job, the size of
a record, the file system). -/
structure Draw where
  id : DurableRecordId
  now : Time
  pageEnds : Bool
  refused : Bool
  deriving DecidableEq

/-- An action on a match of a rule. -/
structure Act where
  ruleId : DurableRecordId
  hit : RelayEvent × Match
  deriving DecidableEq

/-- What a step comes to: the call goes on, perhaps with the first durable write of an action; or it
returns; or it raises. -/
inductive Outcome where
  | going (q : MonitorQueue) (e : Evaluator) (act : Option Act)
  | returns (results : List ActionResult)
  | raises (error : RelayError)

/-- `MAX_MONITOR_RULE_RECORDS`. -/
def maxMonitorRuleRecords : Nat := 10000

/-- `MAX_RESPONSE_PAGE_RECORDS`. -/
def maxPageRecords : Nat := 500

/-- The start of a call with a valid limit: the scan reads the head of the order. -/
def Evaluator.start (limit : Nat) (q : MonitorQueue) : Evaluator :=
  ⟨limit, .scanning q.rules.length 0 [], []⟩

/-- The error of a refused write. -/
def refusal : RelayError := .conflict "the write was refused"

/-- The record that is written back: one-shot rules are triggered by their first match. -/
def Handling.written (handled : Handling) (now : Time) : MonitorRule :=
  { handled.rule with
    nextSeq := handled.nextSeq
    nextSeq_pos := handled.nextSeq_pos
    enabled := handled.rule.enabled && !handled.fires
    triggeredAt := if handled.fires then some now else handled.rule.triggeredAt }

section

variable [Text]

/-- A rule is taken up with the events drained for it: the matches to act on are found. -/
def MonitorRule.takeUp (rule : MonitorRule) (events : List RelayEvent) : Handling :=
  { rule
    nextSeq := rule.nextSeq + events.length
    nextSeq_pos := rule.nextSeq_pos.trans (Nat.le_add_right ..)
    todo := rule.due events
    fires := rule.action ≠ .recordProgress && !(rule.due events).isEmpty
    announce := []
    results := [] }

/-- The last event of an action. -/
def triggered (rule : MonitorRule) (event : RelayEvent) (message : String) (more : Dict) :
    Announcement :=
  ⟨rule.jobId, "monitor.triggered", message,
    [("rule_id", .str rule.ruleId.value), ("matched_seq", .num event.seq "")] ++ more⟩

/-- The event of `append_progress`. -/
def progressUpdated (progress : ProgressRecord) : Announcement :=
  let optional : Option String → Json := fun text => (text.map Json.str).getD .null
  ⟨progress.jobId, "progress.updated", progressMessage progress,
    [("progress_id", .str progress.progressId.value), ("label", .str progress.label),
      ("current", progress.current), ("total", progress.total), ("unit", optional progress.unit),
      ("message", optional progress.message),
      ("source_event_seq", (progress.sourceEventSeq.map fun seq => Json.num seq "").getD .null)]⟩

/-- The first durable write of `_apply_monitor_rule_action`: what it leaves, the events that are
appended after it, and what the caller is told. -/
def applyMonitorRuleAction (rule : MonitorRule) (hit : RelayEvent × Match) (d : Draw)
    (q : MonitorQueue) : Except RelayError (MonitorQueue × List Announcement × ActionResult) := do
  let write ← actionWrite rule hit.1 hit.2 d.id d.now
  match write with
  | .emit =>
    let event := triggered rule hit.1 s!"Monitor rule triggered: {rule.ruleId}" []
    .ok (q.appendEvent event d.now, [], ⟨rule.ruleId, rule.action, hit.1.seq, none, none⟩)
  | .submit job => do
    let submitted ← q.submitJob job d.id
    let event := triggered rule hit.1
      s!"Monitor rule triggered and submitted agent job: {submitted.1}"
      [("submitted_job_id", .str submitted.1.value)]
    .ok (submitted.2, q.queuedEvent submitted.1 ++ [event],
      ⟨rule.ruleId, rule.action, hit.1.seq, some submitted.1, none⟩)
  | .record progress =>
    let event := triggered rule hit.1
      s!"Monitor rule triggered and recorded progress: {progress.progressId}"
      [("progress_id", .str progress.progressId.value)]
    .ok (q.appendProgress progress, [progressUpdated progress, event],
      ⟨rule.ruleId, rule.action, hit.1.seq, none, some progress.progressId⟩)

/-- The next step of a call. -/
def Evaluator.advance (d : Draw) (e : Evaluator) (q : MonitorQueue) : Outcome :=
  match e.stage with
  | .scanning head position found =>
    if position < head then
      -- the window of the scan is the first `MAX_MONITOR_RULE_RECORDS` places of the order
      if position < maxMonitorRuleRecords then
        match q.rules[position]? with
        | none => .raises (.conflict "monitor_rules order index is missing a record")
        | some rule =>
          let head' := if d.pageEnds then q.rules.length else head
          let found' := if rule.enabled then found ++ [rule] else found
          .going q { e with stage := .scanning head' (position + 1) found' } none
      else
        .raises (.configuration (s!"monitor rule evaluation exceeds the bounded source limit " ++
          s!"{maxMonitorRuleRecords}; no rules were evaluated"))
    else .going q { e with stage := .between found } none
  | .between [] => .returns e.results
  | .between (rule :: rest) =>
    if rule.triggeredAt.isSome then .going q { e with stage := .between rest } none
    else if Text.compiles rule.pattern then
      match q.drainEvents rule.jobId rule.nextSeq e.limit with
      | .error error => .raises error
      | .ok events => .going q { e with stage := .handling (rule.takeUp events) rest } none
    else .raises (.value "re.error")
  | .handling handled rest =>
    match handled.announce, handled.todo with
    | event :: more, _ =>
      if d.refused then .raises refusal
      else .going (q.appendEvent event d.now)
        { e with stage := .handling { handled with announce := more } rest } none
    | [], hit :: todo =>
      if d.refused then .raises refusal
      else match applyMonitorRuleAction handled.rule hit d q with
        | .error error => .raises error
        | .ok (q', announce, result) =>
          let handled' := { handled with todo, announce, results := handled.results ++ [result] }
          .going q' { e with stage := .handling handled' rest } (some ⟨handled.rule.ruleId, hit⟩)
    | [], [] =>
      if d.refused then .raises refusal
      else match q.updateMonitorRule (handled.written d.now) with
        | .error error => .raises error
        | .ok q' =>
          .going q' { e with stage := .between rest, results := e.results ++ handled.results } none

end

/-! ### What a step does -/

namespace MonitorQueue

variable {q : MonitorQueue}

theorem log_appendEvent (event : Announcement) (now : Time) (jobId : DurableRecordId) :
    q.log jobId <+: (q.appendEvent event now).log jobId := by
  unfold log appendEvent
  rw [List.filter_append]
  exact List.prefix_append _ _

theorem drainEvents_ok {jobId : DurableRecordId} {nextSeq limit : Nat} {events : List RelayEvent}
    (h : q.drainEvents jobId nextSeq limit = .ok events) :
    events = q.nextEvents jobId nextSeq limit := by
  unfold drainEvents at h
  rcases haccess : (q.nextEvents jobId nextSeq limit).forM validateLegacyOutputEventAccess with _ | _
  · rw [haccess] at h
    cases h
  · rw [haccess, except_ok_bind] at h
    cases h
    rfl

/-- Draining raises for an event with the reserved key only. -/
theorem drainEvents_error {jobId : DurableRecordId} {nextSeq limit : Nat} {error : RelayError}
    (h : q.drainEvents jobId nextSeq limit = .error error) :
    ∃ event ∈ q.log jobId, event.payload.has "legacy_output" = true := by
  by_contra hnone
  have haccess : ∀ events ⊆ q.log jobId,
      events.forM validateLegacyOutputEventAccess = .ok () := by
    intro events
    induction events with
    | nil => exact fun _ => rfl
    | cons event events ih =>
      intro hsub
      have hfree : event.payload.has "legacy_output" = false :=
        Bool.eq_false_iff.2 fun hkey => hnone ⟨event, hsub (.head _), hkey⟩
      show (validateLegacyOutputEventAccess event >>= fun _ => events.forM _) = .ok ()
      rw [validateLegacyOutputEventAccess_ok.2 hfree, except_ok_bind]
      exact ih (List.subset_of_cons_subset hsub)
  have hsub : q.nextEvents jobId nextSeq limit ⊆ q.log jobId :=
    fun event hev => List.mem_of_mem_drop (List.mem_of_mem_take hev)
  unfold drainEvents at h
  rw [haccess _ hsub, except_ok_bind] at h
  cases h

theorem updateMonitorRule_ok {rule : MonitorRule} {q' : MonitorQueue}
    (h : q.updateMonitorRule rule = .ok q') : q' = q.putRule rule := by
  unfold updateMonitorRule at h
  split at h
  · cases h
  · split at h
    · cases h
      rfl
    · cases h

theorem submitJob_ok {job : AgentJob} {fresh jobId : DurableRecordId} {q' : MonitorQueue}
    (h : q.submitJob job fresh = .ok (jobId, q')) :
    q'.rules = q.rules ∧ q'.events = q.events ∧ q'.progress = q.progress := by
  unfold submitJob at h
  split at h
  · cases h
    exact ⟨rfl, rfl, rfl⟩
  · split at h
    · cases h
      exact ⟨rfl, rfl, rfl⟩
    · cases h

/-- The records of the other rules stay. -/
theorem filter_putRule_of_ne {rule : MonitorRule} {ruleId : DurableRecordId}
    (h : rule.ruleId ≠ ruleId) :
    (q.putRule rule).rules.filter (fun r => r.ruleId = ruleId) =
      q.rules.filter fun r => r.ruleId = ruleId := by
  unfold putRule
  induction q.rules with
  | nil => rfl
  | cons r rules ih =>
    rw [List.map_cons, List.filter_cons, List.filter_cons, ih]
    by_cases hr : r.ruleId = rule.ruleId
    · rw [if_pos hr, hr]
      simp only [h, decide_false, Bool.false_eq_true, if_false]
    · rw [if_neg hr]

/-- The record of the rule is replaced. -/
theorem filter_putRule_self {rule stored : MonitorRule}
    (h : q.rules.filter (fun r => r.ruleId = rule.ruleId) = [stored]) :
    (q.putRule rule).rules.filter (fun r => r.ruleId = rule.ruleId) = [rule] := by
  have hmap : (q.putRule rule).rules.filter (fun r => r.ruleId = rule.ruleId) =
      (q.rules.filter fun r => r.ruleId = rule.ruleId).map fun _ => rule := by
    unfold putRule
    induction q.rules with
    | nil => rfl
    | cons r rules ih =>
      rw [List.map_cons, List.filter_cons, List.filter_cons]
      by_cases hr : r.ruleId = rule.ruleId
      · simp [hr, ih]
      · simp [hr, ih]
  rw [hmap, h]
  rfl

end MonitorQueue

/-- The handling of a rule that a call is at. -/
def Evaluator.handled (e : Evaluator) : Option Handling :=
  match e.stage with
  | .handling handled _ => some handled
  | _ => none

/-- The progress records that a rule has appended. -/
def MonitorQueue.recorded (q : MonitorQueue) (ruleId : DurableRecordId) : List ProgressRecord :=
  q.progress.filter fun p =>
    p.metadata.get "source" = .str "monitor_rule" ∧ p.metadata.get "rule_id" = .str ruleId.value

section

variable [Text]
  {result : ActionResult} {d : Draw} {announce : List Announcement} {q q' : MonitorQueue}
  {rule : MonitorRule} {hit : RelayEvent × Match}

/-- The record is one that a rule appends for a match. -/
def Records (rule : MonitorRule) (hit : RelayEvent × Match) (progress : ProgressRecord) : Prop :=
  ∃ progressId now sequence record, progressRecord rule hit.1 hit.2 progressId now = .ok record ∧
      progress = { record with sequence }

/-- The steps of a call that goes on, by the places it goes between. -/
inductive Goes (d : Draw) (limit : Nat) (q : MonitorQueue) :
    Stage → MonitorQueue → Stage → Option Act → Prop
  | scan {head head' position : Nat} {found : List MonitorRule} {rule : MonitorRule}
      (hrule : q.rules[position]? = some rule)
      (hhead : head' = if d.pageEnds then q.rules.length else head) :
      Goes d limit q (.scanning head position found) q
        (.scanning head' (position + 1) (if rule.enabled then found ++ [rule] else found)) none
  | scanned {head position : Nat} {found : List MonitorRule} (hhead : head ≤ position) :
      Goes d limit q (.scanning head position found) q (.between found) none
  | skip {rule : MonitorRule} {rest : List MonitorRule} (htrig : rule.triggeredAt.isSome) :
      Goes d limit q (.between (rule :: rest)) q (.between rest) none
  | takeUp {rule : MonitorRule} {rest : List MonitorRule}
      (htrig : rule.triggeredAt = none) (hpat : Text.compiles rule.pattern = true) :
      Goes d limit q (.between (rule :: rest)) q
        (.handling (rule.takeUp (q.nextEvents rule.jobId rule.nextSeq limit)) rest) none
  | announce {handled : Handling} {rest : List MonitorRule} {event : Announcement}
      {more : List Announcement} (hann : handled.announce = event :: more) :
      Goes d limit q (.handling handled rest) (q.appendEvent event d.now)
        (.handling { handled with announce := more } rest) none
  | act {handled : Handling} {rest : List MonitorRule} {hit : RelayEvent × Match}
      {todo : List (RelayEvent × Match)} {q' : MonitorQueue} {announce : List Announcement}
      {result : ActionResult} (hann : handled.announce = [])
      (htodo : handled.todo = hit :: todo)
      (hact : applyMonitorRuleAction handled.rule hit d q = .ok (q', announce, result)) :
      Goes d limit q (.handling handled rest) q'
        (.handling { handled with todo, announce, results := handled.results ++ [result] } rest)
        (some ⟨handled.rule.ruleId, hit⟩)
  | writeBack {handled : Handling} {rest : List MonitorRule} (hann : handled.announce = [])
      (htodo : handled.todo = []) :
      Goes d limit q (.handling handled rest) (q.putRule (handled.written d.now)) (.between rest) none

/-- **What a call that goes on has done.** -/
theorem goes_of_advance {e e' : Evaluator} {act : Option Act} (h : e.advance d q = .going q' e' act) :
    e'.limit = e.limit ∧ Goes d e.limit q e.stage q' e'.stage act := by
  unfold Evaluator.advance at h
  split at h
  · rename_i _ _ _ hstg
    split at h
    · split at h
      · split at h
        · cases h
        · rename_i rule hrule
          cases h
          rw [hstg]
          exact ⟨rfl, .scan hrule rfl⟩
      · cases h
    · rename_i hhead
      cases h
      rw [hstg]
      exact ⟨rfl, .scanned (Nat.le_of_not_lt hhead)⟩
  · cases h
  · rename_i rule rest hstg
    rw [hstg]
    split at h
    · rename_i htrig
      cases h
      exact ⟨rfl, .skip htrig⟩
    · rename_i htrig
      split at h
      · rename_i hpat
        split at h
        · cases h
        · rename_i events hdrain
          cases h
          rw [MonitorQueue.drainEvents_ok hdrain]
          exact ⟨rfl, .takeUp (Option.not_isSome_iff_eq_none.1 htrig) hpat⟩
      · cases h
  · rename_i _ rest hstg
    rw [hstg]
    split at h
    · rename_i _ _ _ hann
      split at h
      · cases h
      · cases h
        exact ⟨rfl, .announce hann⟩
    · rename_i _ _ hann htodo
      split at h
      · cases h
      · split at h
        · cases h
        · rename_i q₁ announce _ hact
          cases h
          exact ⟨rfl, .act hann htodo hact⟩
    · rename_i hann htodo
      split at h
      · cases h
      · split at h
        · cases h
        · rename_i q₁ hupd
          cases h
          rw [MonitorQueue.updateMonitorRule_ok hupd]
          exact ⟨rfl, .writeBack hann htodo⟩

/-- What an action leaves, by its kind, and the events it announces. -/
inductive Leaves (rule : MonitorRule) (hit : RelayEvent × Match) (d : Draw) (q : MonitorQueue) :
    MonitorQueue → List Announcement → Prop
  | emits (haction : rule.action = .emitEvent) :
      Leaves rule hit d q (q.appendEvent
        (triggered rule hit.1 s!"Monitor rule triggered: {rule.ruleId}" []) d.now) []
  | submits {job : AgentJob} {jobId : DurableRecordId} {q' : MonitorQueue}
      (haction : rule.action = .submitAgent) (hjob : agentJob rule hit.1 hit.2 = .ok job)
      (hsub : q.submitJob job d.id = .ok (jobId, q')) :
      Leaves rule hit d q q' (q.queuedEvent jobId ++ [triggered rule hit.1
        s!"Monitor rule triggered and submitted agent job: {jobId}"
        [("submitted_job_id", .str jobId.value)]])
  | records {progress : ProgressRecord} (haction : rule.action = .recordProgress)
      (hrec : progressRecord rule hit.1 hit.2 d.id d.now = .ok progress) :
      Leaves rule hit d q (q.appendProgress progress) [progressUpdated progress,
        triggered rule hit.1 s!"Monitor rule triggered and recorded progress: {progress.progressId}"
          [("progress_id", .str progress.progressId.value)]]

/-- An action that succeeds leaves what its kind says, and announces the events of that kind. -/
theorem leaves_of_action (h : applyMonitorRuleAction rule hit d q = .ok (q', announce, result)) :
    Leaves rule hit d q q' announce := by
  unfold applyMonitorRuleAction actionWrite at h
  cases haction : rule.action with
  | emitEvent =>
    simp only [haction] at h
    cases h
    exact .emits haction
  | submitAgent =>
    simp only [haction] at h
    rcases hjob : agentJob rule hit.1 hit.2 with e | job
    · rw [hjob] at h
      cases h
    · rw [hjob] at h
      simp only [except_ok_bind] at h
      rcases hsub : q.submitJob job d.id with e | ⟨_, _⟩
      · rw [hsub] at h
        cases h
      · rw [hsub, except_ok_bind] at h
        cases h
        exact .submits haction hjob hsub
  | recordProgress =>
    simp only [haction] at h
    rcases hrec : progressRecord rule hit.1 hit.2 d.id d.now with e | record
    · rw [hrec] at h
      cases h
    · rw [hrec] at h
      simp only [except_ok_bind] at h
      cases h
      exact .records haction hrec

/-- **What an action leaves**: the rules stay, the logs grow, and a `record_progress` rule has one
more record, of the match. -/
theorem applyMonitorRuleAction_ok
    (h : applyMonitorRuleAction rule hit d q = .ok (q', announce, result)) :
    q'.rules = q.rules ∧ (∀ jobId, q.log jobId <+: q'.log jobId) ∧
      if rule.action = .recordProgress then
        ∃ record, Records rule hit record ∧ q'.progress = q.progress ++ [record]
      else q'.progress = q.progress := by
  cases leaves_of_action h with
  | emits haction =>
    rw [if_neg (by rw [haction]; decide)]
    exact ⟨rfl, q.log_appendEvent _ _, rfl⟩
  | submits haction hjob hsub =>
    obtain ⟨hrules, hevs, hprog⟩ := MonitorQueue.submitJob_ok hsub
    rw [if_neg (by rw [haction]; decide)]
    refine ⟨hrules, fun jobId => ?_, hprog⟩
    unfold MonitorQueue.log
    rw [hevs]
  | records haction hrec =>
    rw [if_pos haction]
    exact ⟨rfl, fun _ => List.prefix_rfl, _, ⟨d.id, d.now, _, _, hrec, rfl⟩, rfl⟩

/-- A record that a rule appends is one of the rule. -/
theorem Records.mine {progress : ProgressRecord} (h : Records rule hit progress) :
    progress.metadata = monitorProgressMetadata rule hit.1 hit.2 := by
  obtain ⟨_, _, _, record, hrec, rfl⟩ := h
  unfold progressRecord at hrec
  show record.metadata = _
  revert hrec
  rcases progressLabel rule with e | _
  · intro h; cases h
  rcases progressFloat rule "current" hit.2 with e | current
  · intro h; cases h
  rcases progressFloat rule "total" hit.2 with e | total
  · intro h; cases h
  rcases optionalPayloadStr rule "unit" with e | unit
  · intro h; cases h
  rcases progressMessageOf rule hit.2 with e | _
  · intro h; cases h
  simp only [except_ok_bind]
  split
  · intro h
    cases h
    rfl
  · intro h
    cases h

/-- The progress records of a rule after an action. -/
theorem recorded_of_action (h : applyMonitorRuleAction rule hit d q = .ok (q', announce, result))
    (ruleId : DurableRecordId) :
    if rule.action = .recordProgress ∧ rule.ruleId = ruleId then
      ∃ record, Records rule hit record ∧ q'.recorded ruleId = q.recorded ruleId ++ [record]
    else q'.recorded ruleId = q.recorded ruleId := by
  obtain ⟨-, -, hprog⟩ := applyMonitorRuleAction_ok h
  by_cases haction : rule.action = .recordProgress
  · rw [if_pos haction] at hprog
    obtain ⟨record, hrec, hq⟩ := hprog
    have hmine := hrec.mine
    unfold MonitorQueue.recorded
    rw [hq, List.filter_append, List.filter_singleton, hmine]
    have hid : (monitorProgressMetadata rule hit.1 hit.2).get "rule_id" = .str rule.ruleId.value :=
      rfl
    have hsrc : (monitorProgressMetadata rule hit.1 hit.2).get "source" = .str "monitor_rule" :=
      rfl
    rw [hid, hsrc]
    by_cases hrule : rule.ruleId = ruleId
    · rw [if_pos ⟨haction, hrule⟩]
      exact ⟨record, hrec, by simp [hrule]⟩
    · rw [if_neg fun h => hrule h.2]
      have hne : rule.ruleId.value ≠ ruleId.value := fun h => hrule (DurableRecordId.eq_of_value h)
      simp [hne]
  · rw [if_neg haction] at hprog
    rw [if_neg fun h => haction h.1]
    unfold MonitorQueue.recorded
    rw [hprog]

end

end Monitor
end ClioQueue
