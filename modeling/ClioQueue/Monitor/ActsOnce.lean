/-
# Evaluations of a rule by any number of processes

`World.Step` is one step of a world in which any number of calls of `evaluate_monitor_rules` run,
processes stop, rules are created, and others append events.  `acted` is what has been done for the
rules so far.  A run is `Orderly` for a rule when whoever takes the rule up has read the record that
is still stored, finds nobody else at the rule, and, once it has acted, neither stops nor has a write
refused before it has written the rule back.  Along such runs `Kept` holds: what has been done for
the rule is what its matches before the stored sequence call for, once each and in order.
-/

import ClioQueue.Monitor.Evaluation

namespace ClioQueue
namespace Monitor

/-! ### The world -/

/-- The stored records, the calls on their way, and the actions so far. -/
structure World where
  queue : MonitorQueue
  running : List Evaluator
  acted : List Act

/-- What happens next. -/
inductive Move where
  | begins (limit : Nat)
  | advances (index : Nat) (d : Draw)
  | stops (index : Nat)
  | creates (rule : MonitorRule)
  | others (q : MonitorQueue)

/-- What other writers do: they append events and submit jobs; progress records that are not of the
monitor may come and go. -/
structure Beside (q q' : MonitorQueue) : Prop where
  rules : q'.rules = q.rules
  log : ∀ jobId, q.log jobId <+: q'.log jobId
  recorded : ∀ ruleId, q'.recorded ruleId = q.recorded ruleId

section

variable [Text]

/-- One step.  A call that returns or raises is over; a process may stop at any time; a new rule has
a fresh id. -/
inductive Step : World → Move → World → Prop
  | begins {w : World} {limit : Nat} (hlim : 1 ≤ limit ∧ limit ≤ maxPageRecords) :
      Step w (.begins limit)
        { w with running := w.running ++ [Evaluator.start limit w.queue] }
  | goes {w : World} {index : Nat} {d : Draw} {e e' : Evaluator} {q' : MonitorQueue}
      {act : Option Act} (he : w.running[index]? = some e)
      (h : e.advance d w.queue = .going q' e' act) :
      Step w (.advances index d) ⟨q', w.running.set index e', w.acted ++ act.toList⟩
  | returns {w : World} {index : Nat} {d : Draw} {e : Evaluator} {results : List ActionResult}
      (he : w.running[index]? = some e) (h : e.advance d w.queue = .returns results) :
      Step w (.advances index d) { w with running := w.running.eraseIdx index }
  | raises {w : World} {index : Nat} {d : Draw} {e : Evaluator} {error : RelayError}
      (he : w.running[index]? = some e) (h : e.advance d w.queue = .raises error) :
      Step w (.advances index d) { w with running := w.running.eraseIdx index }
  | stops {w : World} {index : Nat} {e : Evaluator} (he : w.running[index]? = some e) :
      Step w (.stops index) { w with running := w.running.eraseIdx index }
  | creates {w : World} {rule : MonitorRule}
      (hfresh : ∀ r ∈ w.queue.rules, r.ruleId ≠ rule.ruleId) :
      Step w (.creates rule) { w with queue := { w.queue with rules := w.queue.rules ++ [rule] } }
  | others {w : World} {q' : MonitorQueue} (h : Beside w.queue q') :
      Step w (.others q') { w with queue := q' }

end

/-- The matches that have been acted on for a rule. -/
def World.actedOn (w : World) (ruleId : DurableRecordId) : List (RelayEvent × Match) :=
  (w.acted.filter fun act => act.ruleId = ruleId).map Act.hit

/-- The calls at a rule: what each of them has of it. -/
def atWork (running : List Evaluator) (ruleId : DurableRecordId) : List Handling :=
  (running.filterMap Evaluator.handled).filter fun handled => handled.rule.ruleId = ruleId

/-- The condition on a step: a call takes the rule up only with the stored record in hand and when
no call is at it, and a call that has acted on the rule neither stops nor has a write refused. -/
def Orderly (ruleId : DurableRecordId) (w : World) : Move → Prop
  | .advances index d => ∀ e, w.running[index]? = some e →
      (∀ rule rest, e.stage = .between (rule :: rest) → rule.ruleId = ruleId →
        rule.triggeredAt = none →
        w.queue.rules.filter (fun r => r.ruleId = ruleId) = [rule] ∧ atWork w.running ruleId = []) ∧
      ∀ handled, e.handled = some handled → handled.rule.ruleId = ruleId →
        handled.results ≠ [] → d.refused = false
  | .stops index => ∀ e handled, w.running[index]? = some e → e.handled = some handled →
      handled.rule.ruleId = ruleId → handled.results = []
  | _ => True

/-! ### Windows of a log -/

/-- The events of a job from one sequence on up to another. -/
def MonitorQueue.window (q : MonitorQueue) (jobId : DurableRecordId) (first next : Nat) :
    List RelayEvent := ((q.log jobId).drop (first - 1)).take (next - first)

namespace MonitorQueue

variable {q q' : MonitorQueue} {jobId : DurableRecordId} {first next : Nat}

theorem window_self : q.window jobId first first = [] := by
  unfold window
  rw [Nat.sub_self, List.take_zero]

/-- A window within the log stays as the log grows. -/
theorem window_of_prefix (h : q.log jobId <+: q'.log jobId) (hfirst : 1 ≤ first)
    (hnext : next ≤ max first ((q.log jobId).length + 1)) :
    q'.window jobId first next = q.window jobId first next := by
  obtain ⟨_, hmore⟩ := h
  unfold window
  rw [← hmore]
  rcases le_or_gt next first with hle | _
  · rw [Nat.sub_eq_zero_of_le hle, List.take_zero, List.take_zero]
  · have hle : next ≤ (q.log jobId).length + 1 := by omega
    rw [List.drop_append_of_le_length (by omega), List.take_append_of_le_length]
    rw [List.length_drop]
    omega

/-- What is drained comes after the window up to the cursor. -/
theorem window_nextEvents (q : MonitorQueue) (jobId : DurableRecordId) (limit : Nat)
    (hfirst : 1 ≤ first) (h : first ≤ next) :
    q.window jobId first (next + (q.nextEvents jobId next limit).length) =
      q.window jobId first next ++ q.nextEvents jobId next limit := by
  have hdrop : q.nextEvents jobId next limit =
      (((q.log jobId).drop (first - 1)).drop (next - first)).take limit := by
    unfold nextEvents
    rw [List.drop_drop, show first - 1 + (next - first) = next - 1 by omega]
  unfold window
  rw [hdrop]
  generalize (q.log jobId).drop (first - 1) = events
  rw [show next + ((events.drop (next - first)).take limit).length - first =
    next - first + ((events.drop (next - first)).take limit).length by omega, List.take_add]
  congr 1
  rw [List.length_take, List.take_eq_take_iff]
  omega

theorem length_nextEvents_le (q : MonitorQueue) (jobId : DurableRecordId) (next limit : Nat) :
    next + (q.nextEvents jobId next limit).length ≤ max next ((q.log jobId).length + 1) := by
  unfold nextEvents
  rw [List.length_take, List.length_drop]
  omega

end MonitorQueue

section

variable [Text] {rule : MonitorRule}

theorem due_append (a b : List RelayEvent) (h : rule.action ≠ .recordProgress → rule.due a = []) :
    rule.due (a ++ b) = rule.due a ++ rule.due b := by
  unfold MonitorRule.due MonitorRule.matchesIn at *
  by_cases haction : rule.action = .recordProgress
  · rw [if_pos haction, if_pos haction, if_pos haction, List.flatMap_append]
  · have hnone := h haction
    rw [if_neg haction] at hnone
    have hempty : a.flatMap rule.hits = [] := by
      rcases List.take_eq_nil_iff.1 hnone with h | h
      · cases h
      · exact h
    rw [if_neg haction, if_neg haction, if_neg haction, List.flatMap_append, hempty]
    rfl

theorem length_due_le (h : rule.action ≠ .recordProgress) (events : List RelayEvent) :
    (rule.due events).length ≤ 1 := by
  unfold MonitorRule.due
  rw [if_neg h]
  exact List.length_take_le _ _

end

/-! ### Calls at a rule -/

section

variable {running : List Evaluator} {ruleId : DurableRecordId} {index : Nat} {e e' : Evaluator}

/-- What one call has of a rule. -/
def Evaluator.work (e : Evaluator) (ruleId : DurableRecordId) : List Handling :=
  e.handled.toList.filter fun handled => handled.rule.ruleId = ruleId

theorem atWork_append (a b : List Evaluator) :
    atWork (a ++ b) ruleId = atWork a ruleId ++ atWork b ruleId := by
  unfold atWork
  rw [List.filterMap_append, List.filter_append]

theorem atWork_singleton (e : Evaluator) : atWork [e] ruleId = e.work ruleId := by
  unfold atWork Evaluator.work
  cases h : e.handled <;> simp [h]

/-- The calls at a rule, about one of the calls. -/
theorem atWork_split (ruleId : DurableRecordId) (he : running[index]? = some e) :
    ∃ before after, atWork running ruleId = before ++ e.work ruleId ++ after ∧
      (∀ e', atWork (running.set index e') ruleId = before ++ e'.work ruleId ++ after) ∧
      atWork (running.eraseIdx index) ruleId = before ++ after := by
  obtain ⟨hidx, hget⟩ := List.getElem?_eq_some_iff.1 he
  refine ⟨atWork (running.take index) ruleId, atWork (running.drop (index + 1)) ruleId, ?_, ?_, ?_⟩
  · rw [← atWork_singleton, ← atWork_append, ← atWork_append, List.append_assoc,
      List.singleton_append, ← hget, List.getElem_cons_drop, List.take_append_drop]
  · intro e'
    rw [← atWork_singleton, ← atWork_append, ← atWork_append, List.append_assoc,
      List.singleton_append, List.set_eq_take_append_cons_drop, if_pos hidx]
  · rw [← atWork_append, List.eraseIdx_eq_take_drop_succ]

theorem handled_of_stage {handled : Handling} {rest : List MonitorRule}
    (h : e.stage = .handling handled rest) : e.handled = some handled := by
  unfold Evaluator.handled
  rw [h]

theorem work_of_handled {handled : Handling} (h : e.handled = some handled)
    (hrule : handled.rule.ruleId = ruleId) : e.work ruleId = [handled] := by
  unfold Evaluator.work
  rw [h, Option.toList_some, List.filter_singleton, decide_eq_true hrule]
  rfl

theorem work_of_ne {handled : Handling} (h : e.handled = some handled)
    (hrule : handled.rule.ruleId ≠ ruleId) : e.work ruleId = [] := by
  unfold Evaluator.work
  rw [h, Option.toList_some, List.filter_singleton, decide_eq_false hrule]
  rfl

theorem work_of_none (h : e.handled = none) : e.work ruleId = [] := by
  unfold Evaluator.work
  rw [h]
  rfl

end

/-! ### What is kept for a rule -/

/-- A later record of a rule. -/
def Version (rule stored : MonitorRule) : Prop :=
  ∃ nextSeq nextSeq_pos enabled triggeredAt,
    stored = { rule with nextSeq, nextSeq_pos, enabled, triggeredAt }

/-- The record may only move on, and stays once it is triggered. -/
structure MovesOn (stored stored' : MonitorRule) : Prop where
  nextSeq : stored.nextSeq ≤ stored'.nextSeq
  triggered : stored.triggeredAt.isSome → stored' = stored

theorem MovesOn.refl (stored : MonitorRule) : MovesOn stored stored := ⟨le_rfl, fun _ => rfl⟩

theorem MovesOn.trans {a b c : MonitorRule} (h : MovesOn a b) (h' : MovesOn b c) : MovesOn a c := by
  refine ⟨h.nextSeq.trans h'.nextSeq, fun htrig => ?_⟩
  have hb := h.triggered htrig
  rw [h'.triggered (by rw [hb]; exact htrig), hb]

section

variable {rule stored : MonitorRule}

namespace Version

theorem ruleId (h : Version rule stored) : stored.ruleId = rule.ruleId := by
  obtain ⟨_, _, _, _, rfl⟩ := h
  rfl

theorem jobId (h : Version rule stored) : stored.jobId = rule.jobId := by
  obtain ⟨_, _, _, _, rfl⟩ := h
  rfl

theorem action (h : Version rule stored) : stored.action = rule.action := by
  obtain ⟨_, _, _, _, rfl⟩ := h
  rfl

end Version

end

section

variable [Text]

/-- A rule that can be evaluated: its pattern compiles, and no match makes its action fail. -/
structure MonitorRule.Sound (rule : MonitorRule) : Prop where
  compiles : Text.compiles rule.pattern = true
  acts : ∀ event, ∀ hit ∈ rule.hits event, ∀ progressId now,
    ∃ write, actionWrite rule hit.1 hit.2 progressId now = .ok write

/-- A call at the rule: it has the stored record, and has done the first of the matches in the
events it has drained. -/
structure AtWork (rule : MonitorRule) (w : World) (stored : MonitorRule) (handled : Handling)
    (done : List (RelayEvent × Match)) : Prop where
  read : handled.rule = stored
  armed : stored.triggeredAt = none
  forward : stored.nextSeq ≤ handled.nextSeq
  within : handled.nextSeq ≤ max rule.nextSeq ((w.queue.log rule.jobId).length + 1)
  window : rule.due (w.queue.window rule.jobId rule.nextSeq handled.nextSeq) =
    rule.due (w.queue.window rule.jobId rule.nextSeq stored.nextSeq) ++ done ++ handled.todo
  first : rule.action ≠ .recordProgress →
    rule.due (w.queue.window rule.jobId rule.nextSeq stored.nextSeq) = []
  count : done.length = handled.results.length
  fires : handled.fires = (decide (rule.action ≠ .recordProgress) &&
    !(done ++ handled.todo).isEmpty)

/-- **What is kept for a rule** since it had the record `rule` and its progress was `old`: its record,
and what has been done for it. -/
structure Kept (rule : MonitorRule) (old : List ProgressRecord) (w : World) (stored : MonitorRule) :
    Prop where
  only : w.queue.rules.filter (fun r => r.ruleId = rule.ruleId) = [stored]
  version : Version rule stored
  forward : rule.nextSeq ≤ stored.nextSeq
  within : stored.nextSeq ≤ max rule.nextSeq ((w.queue.log rule.jobId).length + 1)
  marked : rule.action ≠ .recordProgress →
    rule.due (w.queue.window rule.jobId rule.nextSeq stored.nextSeq) ≠ [] →
      stored.triggeredAt.isSome ∧ stored.enabled = false
  fired : stored.triggeredAt ≠ rule.triggeredAt →
    rule.due (w.queue.window rule.jobId rule.nextSeq stored.nextSeq) ≠ []
  steady : rule.action = .recordProgress → stored.triggeredAt = rule.triggeredAt
  enabled : stored.triggeredAt = none → stored.enabled = rule.enabled
  recorded : rule.action = .recordProgress → ∃ new, w.queue.recorded rule.ruleId = old ++ new ∧
    List.Forall₂ (Records rule) (w.actedOn rule.ruleId) new
  acted : (atWork w.running rule.ruleId = [] ∧ w.actedOn rule.ruleId =
      rule.due (w.queue.window rule.jobId rule.nextSeq stored.nextSeq)) ∨
    ∃ handled done, atWork w.running rule.ruleId = [handled] ∧ AtWork rule w stored handled done ∧
      w.actedOn rule.ruleId =
        rule.due (w.queue.window rule.jobId rule.nextSeq stored.nextSeq) ++ done

variable {rule stored : MonitorRule} {old : List ProgressRecord} {w w' : World}

namespace Version

theorem due (h : Version rule stored) : stored.due = rule.due := by
  obtain ⟨_, _, _, _, rfl⟩ := h
  rfl

theorem actionWrite (h : Version rule stored) : actionWrite stored = actionWrite rule := by
  obtain ⟨_, _, _, _, rfl⟩ := h
  rfl

theorem records (h : Version rule stored) : Records stored = Records rule := by
  obtain ⟨_, _, _, _, rfl⟩ := h
  rfl

end Version

/-- What others do to the records, and to what has been done for other rules. -/
structure Frame (rule : MonitorRule) (w w' : World) : Prop where
  rules : w'.queue.rules.filter (fun r => r.ruleId = rule.ruleId) =
    w.queue.rules.filter fun r => r.ruleId = rule.ruleId
  log : w.queue.log rule.jobId <+: w'.queue.log rule.jobId
  recorded : w'.queue.recorded rule.ruleId = w.queue.recorded rule.ruleId
  acted : w'.actedOn rule.ruleId = w.actedOn rule.ruleId

/-- What a call has done of a log stays so when events are appended to it. -/
theorem AtWork.frame {handled : Handling} {done : List (RelayEvent × Match)}
    (h : AtWork rule w stored handled done) (hlog : w.queue.log rule.jobId <+: w'.queue.log rule.jobId) :
    AtWork rule w' stored handled done := by
  have hlen := hlog.length_le
  have hstored : stored.nextSeq ≤ max rule.nextSeq ((w.queue.log rule.jobId).length + 1) :=
    h.forward.trans h.within
  refine ⟨h.read, h.armed, h.forward, h.within.trans (by omega), ?_, ?_, h.count, h.fires⟩
  · rw [MonitorQueue.window_of_prefix hlog rule.nextSeq_pos h.within, MonitorQueue.window_of_prefix hlog rule.nextSeq_pos hstored,
      h.window]
  · rw [MonitorQueue.window_of_prefix hlog rule.nextSeq_pos hstored]
    exact h.first

/-- What is kept of a rule stays so under writes that concern neither its record nor its log. -/
theorem Kept.frame (h : Kept rule old w stored) (hframe : Frame rule w w')
    (hwork : atWork w'.running rule.ruleId = atWork w.running rule.ruleId) :
    Kept rule old w' stored := by
  have hlen := hframe.log.length_le
  have hwin := MonitorQueue.window_of_prefix hframe.log rule.nextSeq_pos h.within
  refine ⟨hframe.rules.trans h.only, h.version, h.forward, ?_, ?_, ?_, h.steady, h.enabled, ?_, ?_⟩
  · exact h.within.trans (by omega)
  · rw [hwin]
    exact h.marked
  · rw [hwin]
    exact h.fired
  · rw [hframe.acted, hframe.recorded]
    exact h.recorded
  · rw [hwin, hframe.acted, hwork]
    rcases h.acted with ⟨hidle, hacted⟩ | ⟨handled, done, hat, hdone, hacted⟩
    · exact .inl ⟨hidle, hacted⟩
    · exact .inr ⟨handled, done, hat, hdone.frame hframe.log, hacted⟩

/-! ### The steps of a call -/

variable {e e' : Evaluator} {index : Nat} {handled : Handling}
  {d : Draw} {q q' : MonitorQueue} {error : RelayError} {hit : RelayEvent × Match}

omit [Text] in
/-- A call that is not at the rule, before the step or after it. -/
theorem atWork_set {running : List Evaluator} {ruleId : DurableRecordId}
    (he : running[index]? = some e) (h : e.work ruleId = []) (h' : e'.work ruleId = []) :
    atWork (running.set index e') ruleId = atWork running ruleId := by
  obtain ⟨_, _, hsplit, hset, -⟩ := atWork_split ruleId he
  rw [hset, hsplit, h, h']

/-- **The call at the rule** is the only one. -/
theorem Kept.at (h : Kept rule old w stored) (he : w.running[index]? = some e)
    (hh : e.handled = some handled) (hrule : handled.rule.ruleId = rule.ruleId) :
    ∃ done, AtWork rule w stored handled done ∧
      w.actedOn rule.ruleId =
        rule.due (w.queue.window rule.jobId rule.nextSeq stored.nextSeq) ++ done ∧
      (∀ e', atWork (w.running.set index e') rule.ruleId = e'.work rule.ruleId) ∧
      atWork (w.running.eraseIdx index) rule.ruleId = [] := by
  obtain ⟨before, after, hsplit, hset, herase⟩ := atWork_split rule.ruleId he
  rw [work_of_handled hh hrule] at hsplit
  rcases h.acted with ⟨hidle, -⟩ | ⟨found, done, hat, hdone, hacted⟩
  · rw [hidle] at hsplit
    simp at hsplit
  · rw [hat] at hsplit
    have hlen := congrArg List.length hsplit
    simp only [List.length_append, List.length_singleton] at hlen
    obtain rfl : before = [] := List.eq_nil_of_length_eq_zero (by omega)
    obtain rfl : after = [] := List.eq_nil_of_length_eq_zero (by omega)
    obtain rfl : found = handled := by simpa using hsplit
    exact ⟨done, hdone, hacted, fun e' => by rw [hset]; simp, by rw [herase]; rfl⟩

/-- A call ends that has not acted on the rule. -/
theorem Kept.erase (h : Kept rule old w stored) (he : w.running[index]? = some e)
    (hquiet : ∀ handled, e.handled = some handled → handled.rule.ruleId = rule.ruleId →
      handled.results = []) :
    Kept rule old { w with running := w.running.eraseIdx index } stored := by
  by_cases hat : ∃ handled, e.handled = some handled ∧ handled.rule.ruleId = rule.ruleId
  · obtain ⟨handled, hh, hrule⟩ := hat
    obtain ⟨done, hdone, hacted, -, herase⟩ := h.at he hh hrule
    have hnone : done = [] := by
      have hcnt := hdone.count
      rw [hquiet handled hh hrule] at hcnt
      exact List.eq_nil_of_length_eq_zero hcnt
    refine { h with acted := .inl ⟨herase, ?_⟩ }
    show w.actedOn rule.ruleId = _
    rw [hacted, hnone, List.append_nil]
  · have hwork : e.work rule.ruleId = [] := by
      rcases hh : e.handled with _ | handled
      · exact work_of_none hh
      · exact work_of_ne hh fun hrule => hat ⟨handled, hh, hrule⟩
    obtain ⟨_, _, hsplit, -, herase⟩ := atWork_split rule.ruleId he
    refine h.frame ⟨rfl, List.prefix_rfl, rfl, rfl⟩ ?_
    show atWork (w.running.eraseIdx index) rule.ruleId = _
    rw [herase, hsplit, hwork, List.append_nil]

theorem handled_of_returns {results : List ActionResult} (h : e.advance d q = .returns results) :
    e.handled = none := by
  unfold Evaluator.advance at h
  unfold Evaluator.handled
  split at h
  · rename_i hstg
    rw [hstg]
  · rename_i hstg
    rw [hstg]
  · rename_i hstg
    rw [hstg]
  · exfalso
    split at h
    · split at h <;> cases h
    all_goals
      split at h
      · cases h
      · split at h <;> cases h

/-- Why a call that is at a rule raises. -/
theorem raises_handling (h : e.advance d q = .raises error) (hh : e.handled = some handled) :
    d.refused = true ∨ (∃ hit todo, handled.todo = hit :: todo ∧
        ∃ error, applyMonitorRuleAction handled.rule hit d q = .error error) ∨
      handled.todo = [] ∧ ∃ error, q.updateMonitorRule (handled.written d.now) = .error error := by
  unfold Evaluator.handled at hh
  unfold Evaluator.advance at h
  split at hh
  · rename_i _ _ hstg
    cases hh
    rw [hstg] at h
    simp only at h
    split at h
    · split at h
      · rename_i href
        exact .inl href
      · cases h
    · rename_i hit todo hann htodo
      split at h
      · rename_i href
        exact .inl href
      · split at h
        · rename_i error' hact
          exact .inr (.inl ⟨hit, todo, htodo, error', hact⟩)
        · cases h
    · rename_i hann htodo
      split at h
      · rename_i href
        exact .inl href
      · split at h
        · rename_i error' hupd
          exact .inr (.inr ⟨htodo, error', hupd⟩)
        · cases h
  · cases hh

/-- What is to be done is a match in one of the events. -/
theorem exists_of_mem_due {events : List RelayEvent} (h : hit ∈ rule.due events) :
    ∃ event ∈ events, hit ∈ rule.hits event := by
  have hmem : hit ∈ rule.matchesIn events := by
    unfold MonitorRule.due at h
    split at h
    · exact h
    · exact List.mem_of_mem_take h
  exact List.mem_flatMap.1 hmem

/-- A valid progress action is carried out. -/
theorem applyMonitorRuleAction_record {write : ActionWrite}
    (haction : rule.action = .recordProgress)
    (h : actionWrite rule hit.1 hit.2 d.id d.now = .ok write) :
    ∃ left, applyMonitorRuleAction rule hit d q = .ok left := by
  unfold actionWrite at h
  unfold applyMonitorRuleAction actionWrite
  simp only [haction] at h ⊢
  rcases hrec : progressRecord rule hit.1 hit.2 d.id d.now with _ | _
  · rw [hrec] at h
    cases h
  · exact ⟨_, rfl⟩

/-- **A call that has acted on a sound rule goes on**, unless a write is refused. -/
theorem Kept.goes_on (h : Kept rule old w stored) (hsound : rule.Sound)
    (he : w.running[index]? = some e) (hh : e.handled = some handled)
    (hrule : handled.rule.ruleId = rule.ruleId) (hacted : handled.results ≠ [])
    (href : d.refused = false) : e.advance d w.queue ≠ .raises error := by
  intro hraise
  obtain ⟨_, hdone, -, -, -⟩ := h.at he hh hrule
  have hread : handled.rule = stored := hdone.read
  rcases raises_handling hraise hh with hyes | ⟨hit, _, htodo, error', hact⟩ | ⟨-, error', hupd⟩
  · rw [href] at hyes
    cases hyes
  · have hmem : hit ∈ rule.due (w.queue.window rule.jobId rule.nextSeq handled.nextSeq) := by
      rw [hdone.window, htodo]
      simp
    obtain ⟨event, -, hhit⟩ := exists_of_mem_due hmem
    by_cases haction : rule.action = .recordProgress
    · obtain ⟨_, hwrite⟩ := hsound.acts event hit hhit d.id d.now
      rw [← h.version.actionWrite, ← hread] at hwrite
      rw [← h.version.action, ← hread] at haction
      obtain ⟨_, hleft⟩ := applyMonitorRuleAction_record (q := w.queue) haction hwrite
      rw [hact] at hleft
      cases hleft
    · -- a one-shot rule has one match to act on
      have hlen := length_due_le haction (w.queue.window rule.jobId rule.nextSeq handled.nextSeq)
      rw [hdone.window, hdone.first haction, htodo] at hlen
      have hcnt := hdone.count
      have hpositive := List.length_pos_iff.2 hacted
      simp only [List.nil_append, List.length_append, List.length_cons] at hlen
      omega
  · have hfind : w.queue.rule? rule.ruleId = some stored := by
      unfold MonitorQueue.rule?
      rw [← List.head?_filter, h.only]
      rfl
    unfold MonitorQueue.updateMonitorRule at hupd
    have hid : (handled.written d.now).ruleId = rule.ruleId := hrule
    have hjob : stored.jobId = (handled.written d.now).jobId := by
      show _ = handled.rule.jobId
      rw [hread]
    rw [hid, hfind] at hupd
    simp only [hjob, if_true] at hupd
    cases hupd

/-- **A step of a call that is not at the rule**, before it or after it. -/
theorem Kept.goes_beside (h : Kept rule old w stored) (he : w.running[index]? = some e)
    {act : Option Act} {limit : Nat} (hgoes : Goes d limit w.queue e.stage q' e'.stage act)
    (hwork : e.work rule.ruleId = []) (hwork' : e'.work rule.ruleId = []) :
    Kept rule old ⟨q', w.running.set index e', w.acted ++ act.toList⟩ stored := by
  have hset := atWork_set he hwork hwork'
  have hother : ∀ found rest, e.stage = .handling found rest → found.rule.ruleId ≠ rule.ruleId := by
    intro found rest hstg hid
    rw [work_of_handled (handled_of_stage hstg) hid] at hwork
    cases hwork
  have hsame : ∀ q, q = w.queue → Kept rule old ⟨q, w.running.set index e', w.acted ++ []⟩ stored := by
    rintro q rfl
    rw [List.append_nil]
    exact h.frame ⟨rfl, List.prefix_rfl, rfl, rfl⟩ hset
  generalize hstg : e.stage = stage at hgoes
  generalize e'.stage = stage' at hgoes
  cases hgoes with
  | scan | scanned | skip | takeUp => exact hsame _ rfl
  | announce =>
    refine h.frame ⟨rfl, MonitorQueue.log_appendEvent _ _ _, rfl, ?_⟩ hset
    show World.actedOn ⟨_, _, w.acted ++ []⟩ _ = _
    rw [List.append_nil]
    rfl
  | @act found rest hit todo q₁ announce result hann htodo hact =>
    have hne := hother found rest hstg
    obtain ⟨hrules, hlog, -⟩ := applyMonitorRuleAction_ok hact
    have hrecorded := recorded_of_action hact rule.ruleId
    rw [if_neg fun h => hne h.2] at hrecorded
    refine h.frame ⟨by rw [hrules], hlog _, hrecorded, ?_⟩ hset
    unfold World.actedOn
    rw [Option.toList_some, List.filter_append, List.filter_singleton, decide_eq_false hne]
    simp
  | @writeBack found rest =>
    refine h.frame ⟨MonitorQueue.filter_putRule_of_ne (hother found rest hstg),
      List.prefix_rfl, rfl, ?_⟩ hset
    show World.actedOn ⟨_, _, w.acted ++ []⟩ _ = _
    rw [List.append_nil]
    rfl

/-- **The rule is taken up** with the stored record in hand, and nobody at it. -/
theorem Kept.takeUp (h : Kept rule old w stored) (he : w.running[index]? = some e) {limit : Nat}
    {rest : List MonitorRule} (hstg : e.stage = .between (stored :: rest))
    (hstg' : e'.stage = .handling (stored.takeUp (w.queue.nextEvents stored.jobId stored.nextSeq limit)) rest)
    (harmed : stored.triggeredAt = none) (hfree : atWork w.running rule.ruleId = []) :
    Kept rule old ⟨w.queue, w.running.set index e', w.acted⟩ stored := by
  have hh' := handled_of_stage hstg'
  have hwork : e.work rule.ruleId = [] := work_of_none (by
    unfold Evaluator.handled
    rw [hstg])
  obtain ⟨before, after, hsplit, hset, -⟩ := atWork_split rule.ruleId he
  have hat : atWork (w.running.set index e') rule.ruleId = [stored.takeUp (w.queue.nextEvents stored.jobId stored.nextSeq limit)] := by
    rw [hfree, hwork] at hsplit
    have hlen := congrArg List.length hsplit
    simp only [List.length_append, List.length_nil] at hlen
    obtain rfl : before = [] := List.eq_nil_of_length_eq_zero (by omega)
    obtain rfl : after = [] := List.eq_nil_of_length_eq_zero (by omega)
    rw [hset, work_of_handled hh' h.version.ruleId]
    rfl
  obtain ⟨hidle, hacted⟩ : atWork w.running rule.ruleId = [] ∧ w.actedOn rule.ruleId =
      rule.due (w.queue.window rule.jobId rule.nextSeq stored.nextSeq) := by
    rcases h.acted with hidle | ⟨_, _, hfound, -, -⟩
    · exact hidle
    · rw [hfree] at hfound
      cases hfound
  -- an armed one-shot rule has acted on nothing yet
  have hfirst : rule.action ≠ .recordProgress →
      rule.due (w.queue.window rule.jobId rule.nextSeq stored.nextSeq) = [] := by
    intro haction
    by_contra hne
    have hmark := (h.marked haction hne).1
    rw [harmed] at hmark
    cases hmark
  have hdrained := MonitorQueue.window_nextEvents w.queue rule.jobId limit
    rule.nextSeq_pos h.forward
  refine ⟨h.only, h.version, h.forward, h.within, h.marked, h.fired, h.steady, h.enabled, h.recorded,
    .inr ⟨_, [], hat, ⟨rfl, harmed, Nat.le_add_right .., ?_, ?_, hfirst, rfl, ?_⟩, ?_⟩⟩
  · show stored.nextSeq + (w.queue.nextEvents stored.jobId stored.nextSeq limit).length ≤ _
    have hle := MonitorQueue.length_nextEvents_le w.queue stored.jobId stored.nextSeq limit
    have hwithin := h.within
    rw [h.version.jobId] at hle ⊢
    show _ ≤ max rule.nextSeq ((w.queue.log rule.jobId).length + 1)
    omega
  · show rule.due (w.queue.window rule.jobId rule.nextSeq
        (stored.nextSeq + (w.queue.nextEvents stored.jobId stored.nextSeq limit).length)) =
      _ ++ [] ++ stored.due (w.queue.nextEvents stored.jobId stored.nextSeq limit)
    rw [h.version.jobId, hdrained, due_append _ _ hfirst, h.version.due, List.append_nil]
  · show (stored.action ≠ .recordProgress && !(stored.due _).isEmpty) = _
    rw [h.version.action]
    rfl
  · show w.actedOn rule.ruleId = _
    rw [hacted, List.append_nil]

/-- **An event is appended** by the call at the rule. -/
theorem Kept.announce (h : Kept rule old w stored) (he : w.running[index]? = some e)
    (hh : e.handled = some handled) (hrule : handled.rule.ruleId = rule.ruleId)
    {event : Announcement} {more : List Announcement} {now : Time}
    (hh' : e'.handled = some { handled with announce := more }) :
    Kept rule old ⟨w.queue.appendEvent event now, w.running.set index e', w.acted⟩ stored := by
  obtain ⟨done, hdone, hacted, hset, -⟩ := h.at he hh hrule
  have hlog := MonitorQueue.log_appendEvent (q := w.queue) event now rule.jobId
  have hlen := hlog.length_le
  have hwin := MonitorQueue.window_of_prefix hlog rule.nextSeq_pos h.within
  have hframed : AtWork rule ⟨w.queue.appendEvent event now, w.running.set index e', w.acted⟩ stored
      handled done := hdone.frame hlog
  refine ⟨h.only, h.version, h.forward, h.within.trans ?_, ?_, ?_, h.steady, h.enabled, h.recorded,
    .inr ⟨{ handled with announce := more }, done, ?_, { hframed with }, ?_⟩⟩
  · show _ ≤ max _ (((w.queue.appendEvent event now).log rule.jobId).length + 1)
    omega
  · rw [hwin]
    exact h.marked
  · rw [hwin]
    exact h.fired
  · rw [hset, work_of_handled hh' hrule]
  · show w.actedOn rule.ruleId = _
    rw [hwin, hacted]

/-- **The call at the rule acts** on the next match. -/
theorem Kept.act (h : Kept rule old w stored) (he : w.running[index]? = some e)
    (hh : e.handled = some handled) (hrule : handled.rule.ruleId = rule.ruleId) {d : Draw}
    {hit : RelayEvent × Match} {todo : List (RelayEvent × Match)} {q' : MonitorQueue}
    {announce : List Announcement} {result : ActionResult} (htodo : handled.todo = hit :: todo)
    (hact : applyMonitorRuleAction handled.rule hit d w.queue = .ok (q', announce, result))
    (hh' : e'.handled =
      some { handled with todo, announce, results := handled.results ++ [result] }) :
    Kept rule old ⟨q', w.running.set index e', w.acted ++ [⟨handled.rule.ruleId, hit⟩]⟩ stored := by
  obtain ⟨done, hdone, hacted, hset, -⟩ := h.at he hh hrule
  obtain ⟨hrules, hlogs, -⟩ := applyMonitorRuleAction_ok hact
  have hlog := hlogs rule.jobId
  have hlen := hlog.length_le
  have hwin := MonitorQueue.window_of_prefix hlog rule.nextSeq_pos h.within
  have hframed : AtWork rule ⟨q', w.running.set index e', w.acted ++ [⟨handled.rule.ruleId, hit⟩]⟩
      stored handled done := hdone.frame hlog
  have hactedOn : World.actedOn
      ⟨q', w.running.set index e', w.acted ++ [⟨handled.rule.ruleId, hit⟩]⟩ rule.ruleId =
        w.actedOn rule.ruleId ++ [hit] := by
    unfold World.actedOn
    rw [List.filter_append, List.filter_singleton, decide_eq_true hrule]
    simp
  refine ⟨by rw [← h.only, hrules], h.version, h.forward, h.within.trans ?_, ?_, ?_, h.steady, h.enabled,
    ?_, .inr ⟨{ handled with todo, announce, results := handled.results ++ [result] },
      done ++ [hit], by rw [hset, work_of_handled hh' hrule],
      ⟨hframed.read, hframed.armed, hframed.forward, hframed.within, ?_, hframed.first, ?_, ?_⟩,
      ?_⟩⟩
  · show _ ≤ max _ ((q'.log rule.jobId).length + 1)
    omega
  · rw [hwin]
    exact h.marked
  · rw [hwin]
    exact h.fired
  · intro haction
    have hrecorded := recorded_of_action hact rule.ruleId
    have haction' : handled.rule.action = .recordProgress := by
      rw [hdone.read, h.version.action, haction]
    rw [if_pos ⟨haction', hrule⟩] at hrecorded
    obtain ⟨record, hrec, hq⟩ := hrecorded
    rw [hdone.read, h.version.records] at hrec
    obtain ⟨new, hnew, hall⟩ := h.recorded haction
    refine ⟨new ++ [record], by rw [hq, hnew, List.append_assoc], ?_⟩
    rw [hactedOn]
    exact List.rel_append hall (.cons hrec .nil)
  · rw [hframed.window, htodo]
    simp
  · rw [List.length_append, List.length_append, hdone.count]
    rfl
  · rw [show handled.fires = _ from hdone.fires, htodo]
    simp
  · rw [hactedOn, hwin, hacted, List.append_assoc]

/-- **The rule is written back**, after the last action. -/
theorem Kept.writeBack (h : Kept rule old w stored) (he : w.running[index]? = some e)
    (hh : e.handled = some handled) (hrule : handled.rule.ruleId = rule.ruleId) {now : Time}
    (htodo : handled.todo = []) (hh' : e'.handled = none) :
    Kept rule old ⟨w.queue.putRule (handled.written now), w.running.set index e', w.acted⟩
        (handled.written now) ∧ MovesOn stored (handled.written now) := by
  obtain ⟨done, hdone, hacted, hset, -⟩ := h.at he hh hrule
  have hid : (handled.written now).ruleId = rule.ruleId := hrule
  have hwin := hdone.window
  rw [htodo, List.append_nil] at hwin
  refine ⟨⟨?_, ?_, h.forward.trans hdone.forward, hdone.within, ?_, ?_, ?_, ?_, h.recorded,
    .inl ⟨?_, ?_⟩⟩, ⟨hdone.forward, ?_⟩⟩
  · have honly := h.only
    rw [← hid] at honly ⊢
    exact MonitorQueue.filter_putRule_self honly
  · obtain ⟨nextSeq, nextSeq_pos, enabled, triggeredAt, hstored⟩ := h.version
    refine ⟨handled.nextSeq, handled.nextSeq_pos, handled.rule.enabled && !handled.fires,
      if handled.fires then some now else handled.rule.triggeredAt, ?_⟩
    unfold Handling.written
    rw [hdone.read, hstored]
  · intro haction hne
    have hfires : handled.fires = true := by
      have hdue : done ≠ [] := by
        intro hnil
        refine hne ?_
        show rule.due (w.queue.window rule.jobId rule.nextSeq handled.nextSeq) = []
        rw [hwin, hnil, hdone.first haction]
        rfl
      rw [hdone.fires, htodo, List.append_nil]
      simp [haction, hdue]
    unfold Handling.written
    simp [hfires]
  · intro hchg
    show rule.due (w.queue.window rule.jobId rule.nextSeq handled.nextSeq) ≠ []
    rw [hwin]
    by_cases hstored : stored.triggeredAt = rule.triggeredAt
    · refine List.append_ne_nil_of_right_ne_nil _ fun hnil => hchg ?_
      have hfires : handled.fires = false := by
        rw [hdone.fires, htodo, hnil]
        simp
      unfold Handling.written
      simp only [hfires, hdone.read, Bool.false_eq_true, if_false]
      exact hstored
    · exact List.append_ne_nil_of_left_ne_nil (h.fired hstored) _
  · intro haction
    have hfires : handled.fires = false := by
      rw [hdone.fires]
      simp [haction]
    unfold Handling.written
    simp only [hfires, hdone.read, Bool.false_eq_true, if_false]
    exact h.steady haction
  · intro harmed
    have hfires : handled.fires = false := by
      by_contra hfires
      unfold Handling.written at harmed
      simp [Bool.eq_true_of_not_eq_false hfires] at harmed
    unfold Handling.written
    simp only [hfires, hdone.read, Bool.not_false, Bool.and_true]
    exact h.enabled hdone.armed
  · rw [hset, work_of_none hh']
  · show w.actedOn rule.ruleId = rule.due (w.queue.window rule.jobId rule.nextSeq handled.nextSeq)
    rw [hacted, hwin]
  · intro htrig
    rw [hdone.armed] at htrig
    cases htrig

/-- **A step of a call that goes on keeps what is kept for the rule**, if the call takes the rule up
only with the stored record in hand and when no call is at it. -/
theorem Kept.goes {d : Draw} {q' : MonitorQueue} {act : Option Act} (h : Kept rule old w stored)
    (he : w.running[index]? = some e) (hadv : e.advance d w.queue = .going q' e' act)
    (hup : ∀ other rest, e.stage = .between (other :: rest) → other.ruleId = rule.ruleId →
      other.triggeredAt = none →
      w.queue.rules.filter (fun r => r.ruleId = rule.ruleId) = [other] ∧
        atWork w.running rule.ruleId = []) :
    ∃ stored', Kept rule old ⟨q', w.running.set index e', w.acted ++ act.toList⟩ stored' ∧
      MovesOn stored stored' := by
  obtain ⟨-, hgoes⟩ := goes_of_advance hadv
  by_cases hat : ∃ handled rest, e.stage = .handling handled rest ∧
      handled.rule.ruleId = rule.ruleId
  · obtain ⟨handled, rest, hstg, hrule⟩ := hat
    have hh := handled_of_stage hstg
    rw [hstg] at hgoes
    generalize hstg' : e'.stage = stage' at hgoes
    cases hgoes with
    | @announce _ _ event =>
      have hkept : Kept rule old
          ⟨w.queue.appendEvent event d.now, w.running.set index e', w.acted⟩ stored :=
        h.announce he hh hrule (handled_of_stage hstg')
      rw [Option.toList_none, List.append_nil]
      exact ⟨stored, hkept, .refl stored⟩
    | act hann htodo hact =>
      exact ⟨stored, h.act he hh hrule htodo hact (handled_of_stage hstg'), .refl stored⟩
    | writeBack hann htodo =>
      rw [Option.toList_none, List.append_nil]
      refine ⟨_, h.writeBack he hh hrule htodo ?_⟩
      unfold Evaluator.handled
      rw [hstg']
  · have hwork : e.work rule.ruleId = [] := by
      rcases hh : e.handled with _ | handled
      · exact work_of_none hh
      · refine work_of_ne hh fun hrule => hat ?_
        unfold Evaluator.handled at hh
        split at hh
        · rename_i found rest hstg
          cases hh
          exact ⟨_, rest, hstg, hrule⟩
        · cases hh
    by_cases htaken : ∃ rest, e.stage = .between (stored :: rest) ∧ stored.triggeredAt = none ∧
        e'.stage = .handling (stored.takeUp (w.queue.nextEvents stored.jobId stored.nextSeq e.limit)) rest
    · obtain ⟨rest, hstg, harmed, hstg'⟩ := htaken
      have hfree := hup stored rest hstg h.version.ruleId harmed
      have hact : act = none ∧ q' = w.queue := by
        rw [hstg, hstg'] at hgoes
        cases hgoes
        exact ⟨rfl, rfl⟩
      rw [hact.1, hact.2, Option.toList_none, List.append_nil]
      exact ⟨stored, h.takeUp he hstg hstg' harmed hfree.2, .refl stored⟩
    · refine ⟨stored, h.goes_beside he hgoes hwork ?_, .refl stored⟩
      -- a call that is not at the rule comes to it only by taking it up
      rcases hh : e'.handled with _ | handled
      · exact work_of_none hh
      · refine work_of_ne hh fun hrule => ?_
        unfold Evaluator.handled at hh
        split at hh
        · rename_i found rest hstg'
          cases hh
          rw [hstg'] at hgoes
          generalize hstg : e.stage = stage at hgoes
          cases hgoes with
          | takeUp htrig =>
            have hread := hup _ _ hstg hrule htrig
            rw [h.only] at hread
            cases hread.1
            exact htaken ⟨_, hstg, htrig, hstg'⟩
          | announce | act => exact hat ⟨_, _, hstg, hrule⟩
        · cases hh


/-- **A new rule** has another id. -/
theorem Kept.creates {other : MonitorRule} (h : Kept rule old w stored)
    (hfresh : ∀ r ∈ w.queue.rules, r.ruleId ≠ other.ruleId) :
    Kept rule old { w with queue := { w.queue with rules := w.queue.rules ++ [other] } } stored := by
  refine h.frame ⟨?_, List.prefix_rfl, rfl, rfl⟩ rfl
  have hmem : stored ∈ w.queue.rules := by
    have hone : stored ∈ w.queue.rules.filter fun r => r.ruleId = rule.ruleId := by
      rw [h.only]
      exact List.mem_singleton_self stored
    exact List.mem_of_mem_filter hone
  have hne : other.ruleId ≠ rule.ruleId := by
    rw [← h.version.ruleId]
    exact (hfresh stored hmem).symm
  show (w.queue.rules ++ [other]).filter _ = _
  rw [List.filter_append, List.filter_singleton, decide_eq_false hne]
  exact List.append_nil _

/-- **What others write** is beside the rules. -/
theorem Kept.others (h : Kept rule old w stored) (hbeside : Beside w.queue q') :
    Kept rule old { w with queue := q' } stored := by
  refine h.frame ⟨?_, hbeside.log _, hbeside.recorded _, rfl⟩ rfl
  show _ = w.queue.rules.filter _
  rw [← hbeside.rules]

/-- **One orderly step keeps what is kept for a sound rule**, and its record moves on. -/
theorem Kept.step {move : Move} (h : Kept rule old w stored) (hsound : rule.Sound)
    (hord : Orderly rule.ruleId w move) (hstep : Step w move w') :
    ∃ stored', Kept rule old w' stored' ∧ MovesOn stored stored' := by
  cases hstep with
  | begins =>
    refine ⟨stored, h.frame ⟨rfl, List.prefix_rfl, rfl, rfl⟩ ?_, .refl stored⟩
    rw [atWork_append, atWork_singleton, work_of_none rfl, List.append_nil]
  | creates hfresh => exact ⟨stored, h.creates hfresh, .refl stored⟩
  | others hbeside => exact ⟨stored, h.others hbeside, .refl stored⟩
  | stops he => exact ⟨stored, h.erase he fun handled => hord _ handled he, .refl stored⟩
  | returns he hret =>
    refine ⟨stored, h.erase he fun handled hh => ?_, .refl stored⟩
    rw [handled_of_returns hret] at hh
    cases hh
  | @raises index d e error he hraise =>
    refine ⟨stored, h.erase he fun handled hh hrule => ?_, .refl stored⟩
    by_contra hacted
    have href := (hord e he).2 handled hh hrule hacted
    exact h.goes_on hsound he hh hrule hacted href hraise
  | goes he hadv => exact h.goes he hadv (hord _ he).1

end

end Monitor
end ClioQueue
