/-
# The rules among themselves

A call of `evaluate_monitor_rules` takes the rules up in one loop, and an error ends it.  Calls that
fail at most at the last rule they have to take up let every other rule act on its matches
(`Attempts.acts`).  The actions of the rules append events themselves (`Echo`); where no
`record_progress` rule has a match in these, the calls come to act no more (`acts_no_more`).
-/

import ClioQueue.Monitor.ActsOnceRuns

namespace ClioQueue
namespace Monitor

/-- The record of a rule is the only one with its id. -/
theorem Distinct.filter_eq {rules : List MonitorRule} {rule : MonitorRule} (h : Distinct rules) (hrule : rule ∈ rules) :
    rules.filter (fun r => r.ruleId = rule.ruleId) = [rule] := by
  have hnd : (rules.filter fun r => r.ruleId = rule.ruleId).Nodup :=
    (List.Nodup.of_map _ h).filter _
  have hmem : rule ∈ rules.filter fun r => r.ruleId = rule.ruleId :=
    List.mem_filter.2 ⟨hrule, decide_eq_true rfl⟩
  have hall : ∀ r ∈ rules.filter (fun r => r.ruleId = rule.ruleId), r = rule := fun r hr =>
    h.eq (List.mem_filter.1 hr).1 hrule (of_decide_eq_true (List.mem_filter.1 hr).2)
  generalize rules.filter (fun r => r.ruleId = rule.ruleId) = found at hnd hmem hall
  match found, hnd, hmem, hall with
  | [], _, hmem, _ => cases hmem
  | [only], _, _, hall => rw [hall only (.head _)]
  | first :: second :: _, hnd, _, hall =>
    have hfirst := hall first (.head _)
    have hsecond := hall second (.tail _ (.head _))
    rw [hfirst, hsecond] at hnd
    exact absurd (.head _) (List.nodup_cons.1 hnd).1

theorem drop_prefix_window {q q' : MonitorQueue} {jobId : DurableRecordId} {first next : Nat}
    (h : q.log jobId <+: q'.log jobId) (hnext : (q.log jobId).length + 1 ≤ next) :
    (q.log jobId).drop (first - 1) <+: q'.window jobId first next := by
  obtain ⟨_, hmore⟩ := h
  unfold MonitorQueue.window
  rw [← hmore]
  rcases le_or_gt (q.log jobId).length (first - 1) with hle | _
  · rw [List.drop_of_length_le hle]
    exact List.nil_prefix
  · rw [List.drop_append_of_le_length (by omega), List.take_append, List.take_of_length_le]
    · exact List.prefix_append _ _
    · rw [List.length_drop]
      omega

section

variable [Text]

/-- An idle world with a history that begins now. -/
structure Idle (w : World) : Prop where
  running : w.running = []
  acted : w.acted = []
  distinct : Distinct w.queue.rules

variable {rule stored : MonitorRule} {old : List ProgressRecord} {w w' : World}

/-- What is kept for a stored rule from now on. -/
theorem Idle.kept (h : Idle w) (hrule : rule ∈ w.queue.rules) :
    Kept rule (w.queue.recorded rule.ruleId) w rule := by
  refine Kept.begin (h.distinct.filter_eq hrule) ?_ ?_
  · rw [h.running]
    rfl
  · unfold World.actedOn
    rw [h.acted]
    rfl

/-! ### Every rule has its turn -/

theorem matchesIn_prefix (rule : MonitorRule) {a b : List RelayEvent} (h : a <+: b) :
    rule.matchesIn a <+: rule.matchesIn b := by
  obtain ⟨_, rfl⟩ := h
  unfold MonitorRule.matchesIn
  rw [List.flatMap_append]
  exact List.prefix_append _ _

/-- The first match of a log is that of every window that has one. -/
theorem due_prefix_window {events : List RelayEvent} {next : Nat}
    (hevs : events <+: (w'.queue.log rule.jobId).drop (rule.nextSeq - 1))
    (haction : rule.action ≠ .recordProgress)
    (hne : rule.due (w'.queue.window rule.jobId rule.nextSeq next) ≠ []) :
    rule.due events <+: rule.due (w'.queue.window rule.jobId rule.nextSeq next) := by
  have hwin := matchesIn_window rule w'.queue rule.nextSeq next
  have hmatch := matchesIn_prefix rule hevs
  unfold MonitorRule.due at hne ⊢
  rw [if_neg haction] at hne
  rw [if_neg haction, if_neg haction]
  rcases hfound : rule.matchesIn (w'.queue.window rule.jobId rule.nextSeq next) with _ | ⟨_, _⟩
  · rw [hfound] at hne
    exact absurd rfl hne
  · rw [hfound] at hwin
    obtain ⟨_, hrest⟩ := hwin
    rcases hown : rule.matchesIn events with _ | ⟨_, _⟩
    · exact List.nil_prefix
    · rw [hown, ← hrest, List.cons_append, List.cons_prefix_cons] at hmatch
      rw [hmatch.1]
      exact List.prefix_rfl

/-- **A rule at which no call fails acts on its matches**: after as many undisturbed calls as its
log had events, on all of them if it records progress, else on the first one. -/
theorem Attempts.acts {n : Nat} (hidle : Idle w) (hrule : rule ∈ w.queue.rules)
    (hen : rule.enabled = true) (harmed : rule.triggeredAt = none)
    (h : Attempts rule.ruleId n w w') (hn : (w.queue.log rule.jobId).length ≤ n) :
    rule.due ((w.queue.log rule.jobId).drop (rule.nextSeq - 1)) <+: w'.actedOn rule.ruleId := by
  obtain ⟨stored', hkept', -, hlog, hdrained⟩ :=
    h.drain (hidle.kept hrule) hidle.distinct hen
  have hacted : w'.actedOn rule.ruleId =
      rule.due (w'.queue.window rule.jobId rule.nextSeq stored'.nextSeq) := by
    rcases hkept'.acted with ⟨-, hdue⟩ | ⟨_, _, hat, -⟩
    · exact hdue
    · rw [h.running hidle.running] at hat
      cases hat
  have hpos := rule.nextSeq_pos
  rw [hacted]
  -- an armed rule has passed all the events that there were
  have hpassed : stored'.triggeredAt = none → (w.queue.log rule.jobId).drop (rule.nextSeq - 1) <+:
        w'.queue.window rule.jobId rule.nextSeq stored'.nextSeq := by
    intro harmed'
    have hreach := hdrained harmed'
    exact drop_prefix_window hlog (by omega)
  by_cases haction : rule.action = .recordProgress
  · have hmatch := matchesIn_prefix rule (hpassed ((hkept'.steady haction).trans harmed))
    unfold MonitorRule.due
    rwa [if_pos haction, if_pos haction]
  · have hevs : (w.queue.log rule.jobId).drop (rule.nextSeq - 1) <+:
        (w'.queue.log rule.jobId).drop (rule.nextSeq - 1) := by
      obtain ⟨_, hmore⟩ := hlog
      rw [← hmore, List.drop_append]
      exact List.prefix_append _ _
    by_cases hne : rule.due (w'.queue.window rule.jobId rule.nextSeq stored'.nextSeq) = []
    · -- a rule without a match yet is armed
      have harmed' : stored'.triggeredAt = none := by
        by_contra htrig
        exact hkept'.fired (by rw [harmed]; exact htrig) hne
      have hmatch := matchesIn_prefix rule (hpassed harmed')
      unfold MonitorRule.due at hne ⊢
      rw [if_neg haction] at hne
      have hnone : rule.matchesIn (w'.queue.window rule.jobId rule.nextSeq stored'.nextSeq) = [] := by
        rcases List.take_eq_nil_iff.1 hne with h | h
        · cases h
        · exact h
      rw [hnone, List.prefix_nil] at hmatch
      rw [if_neg haction, hmatch]
      exact List.nil_prefix
    · exact due_prefix_window hevs haction hne

/-! ### What the rules write themselves -/

/-- The events that the actions of the enabled rules append. -/
inductive Echo (rules : List MonitorRule) : Announcement → Prop
  | emitted {rule : MonitorRule} (hrule : rule ∈ rules) (hen : rule.enabled = true)
      (haction : rule.action = .emitEvent) (event : RelayEvent) :
      Echo rules (triggered rule event s!"Monitor rule triggered: {rule.ruleId}" [])
  | submitted {rule : MonitorRule} (hrule : rule ∈ rules) (hen : rule.enabled = true)
      (haction : rule.action = .submitAgent) (event : RelayEvent) (jobId : DurableRecordId) :
      Echo rules (triggered rule event s!"Monitor rule triggered and submitted agent job: {jobId}"
        [("submitted_job_id", .str jobId.value)])
  | queued {rule : MonitorRule} (hrule : rule ∈ rules) (hen : rule.enabled = true)
      (haction : rule.action = .submitAgent) (jobId : DurableRecordId) :
      Echo rules ⟨jobId, "job.queued", "Job queued", []⟩
  | recorded {rule : MonitorRule} (hrule : rule ∈ rules) (hen : rule.enabled = true)
      (haction : rule.action = .recordProgress) (event : RelayEvent)
      (progressId : DurableRecordId) :
      Echo rules (triggered rule event
        s!"Monitor rule triggered and recorded progress: {progressId}"
        [("progress_id", .str progressId.value)])
  | updated {rule : MonitorRule} (hrule : rule ∈ rules) (hen : rule.enabled = true)
      (haction : rule.action = .recordProgress) {hit : RelayEvent × Match}
      {progressId : DurableRecordId} {now : Time} {progress : ProgressRecord}
      (h : progressRecord rule hit.1 hit.2 progressId now = .ok progress) :
      Echo rules (progressUpdated progress)

/-- The rule has no match in the events that the actions of the rules append to the log of its
job. -/
def MonitorRule.Deaf (rule : MonitorRule) (rules : List MonitorRule) : Prop :=
  ∀ a, Echo rules a → a.jobId = rule.jobId → ∀ seq now, rule.hits (a.event seq now) = []

/-- The logs have grown by events of the rules' own. -/
def Echoes (rules : List MonitorRule) (q q' : MonitorQueue) : Prop :=
  ∀ jobId, ∃ new, q'.log jobId = q.log jobId ++ new ∧
    ∀ event ∈ new, ∃ a seq now, Echo rules a ∧ a.jobId = jobId ∧ event = a.event seq now

variable {rules : List MonitorRule}

theorem Echoes.of_events {q q' : MonitorQueue} (h : q'.events = q.events) : Echoes rules q q' := by
  refine fun jobId => ⟨[], ?_, fun _ hev => (by cases hev)⟩
  unfold MonitorQueue.log
  rw [h, List.append_nil]

theorem Echoes.trans {a b c : MonitorQueue} (h : Echoes rules a b) (h' : Echoes rules b c) :
    Echoes rules a c := by
  intro jobId
  obtain ⟨new, hlog, hnew⟩ := h jobId
  obtain ⟨new', hlog', hnew'⟩ := h' jobId
  refine ⟨new ++ new', by rw [hlog', hlog, List.append_assoc], fun event hev => ?_⟩
  rcases List.mem_append.1 hev with hev | hev
  · exact hnew event hev
  · exact hnew' event hev

theorem echoes_appendEvent {q : MonitorQueue} {a : Announcement} (h : Echo rules a) (now : Time) :
    Echoes rules q (q.appendEvent a now) := by
  intro jobId
  unfold MonitorQueue.log MonitorQueue.appendEvent
  rw [List.filter_append, List.filter_singleton]
  by_cases hjob : a.jobId = jobId
  · rw [decide_eq_true (show (a.event _ now).jobId = jobId from hjob)]
    refine ⟨_, rfl, fun event hev => ?_⟩
    rw [List.mem_singleton.1 hev]
    exact ⟨a, _, now, h, hjob, rfl⟩
  · rw [decide_eq_false (show ¬ (a.event _ now).jobId = jobId from hjob)]
    exact ⟨[], rfl, fun _ hev => (by cases hev)⟩

/-- A deaf rule finds no more in a log that has grown so. -/
theorem MonitorRule.Deaf.matchesIn (h : rule.Deaf rules) {q q' : MonitorQueue}
    (hechoes : Echoes rules q q') (first : Nat) :
    rule.matchesIn ((q'.log rule.jobId).drop first) =
      rule.matchesIn ((q.log rule.jobId).drop first) := by
  obtain ⟨new, hlog, hnew⟩ := hechoes rule.jobId
  have hnone : (new.drop (first - (q.log rule.jobId).length)).flatMap rule.hits = [] := by
    rw [List.flatMap_eq_nil_iff]
    intro event hev
    obtain ⟨a, seq, now, hecho, hjob, rfl⟩ := hnew event (List.mem_of_mem_drop hev)
    exact h a hecho hjob seq now
  unfold MonitorRule.matchesIn
  rw [hlog, List.drop_append, List.flatMap_append, hnone, List.append_nil]

/-- The events that an action announces are echoes, and so is the one it appends at once. -/
theorem echoes_action {hit : RelayEvent × Match} {d : Draw} {q q' : MonitorQueue}
    {announce : List Announcement} {result : ActionResult} (hversion : Version rule stored)
    (hrule : rule ∈ rules) (hen : rule.enabled = true)
    (h : applyMonitorRuleAction stored hit d q = .ok (q', announce, result)) :
    Echoes rules q q' ∧ ∀ a ∈ announce, Echo rules a := by
  obtain ⟨_, _, enabled, _, rfl⟩ := hversion
  cases leaves_of_action h with
  | emits haction =>
    exact ⟨echoes_appendEvent (.emitted hrule hen haction hit.1) d.now, fun _ ha => (by cases ha)⟩
  | @submits job jobId _ haction hjob hsub =>
    obtain ⟨-, hevs, -⟩ := MonitorQueue.submitJob_ok hsub
    refine ⟨.of_events hevs, fun a ha => ?_⟩
    rcases List.mem_append.1 ha with ha | ha
    · unfold MonitorQueue.queuedEvent at ha
      split at ha
      · rw [List.mem_singleton.1 ha]
        exact .queued hrule hen haction jobId
      · cases ha
    · rw [List.mem_singleton.1 ha]
      exact .submitted hrule hen haction hit.1 jobId
  | @records progress haction hrec =>
    refine ⟨.of_events rfl, fun a ha => ?_⟩
    rcases List.mem_pair.1 ha with rfl | rfl
    · exact .updated hrule hen haction hrec
    · exact .recorded hrule hen haction hit.1 progress.progressId

/-! ### The rules come to rest -/

/-- What a call has yet to append are echoes. -/
def Stage.Announces (rules : List MonitorRule) : Stage → Prop
  | .handling handled _ => ∀ a ∈ handled.announce, Echo rules a
  | _ => True

/-- What has come of the rules of `base` while nobody else wrote. -/
structure Tended (base w : World) : Prop where
  distinct : Distinct w.queue.rules
  ids : w.queue.rules.map MonitorRule.ruleId = base.queue.rules.map MonitorRule.ruleId
  echoes : Echoes base.queue.rules base.queue w.queue
  kept : ∀ rule ∈ base.queue.rules, ∃ stored, Kept rule (base.queue.recorded rule.ruleId) w stored
  acted : ∀ act ∈ w.acted, ∃ rule ∈ base.queue.rules, rule.enabled = true ∧
    act.ruleId = rule.ruleId

theorem Idle.tended (h : Idle w) : Tended w w where
  distinct := h.distinct
  ids := rfl
  echoes := .of_events rfl
  kept := fun rule hrule => ⟨rule, h.kept hrule⟩
  acted := fun act hact => by
    rw [h.acted] at hact
    cases hact

variable {base : World} {e : Evaluator} {rest : List MonitorRule} {bad : MonitorRule}

/-- The rule that a call is at is a later record of an enabled rule. -/
theorem Tended.origin (h : Tended base w) {read : MonitorRule} (hread : read ∈ w.queue.rules)
    (hen : read.enabled = true) (harmed : read.triggeredAt = none) :
    ∃ rule ∈ base.queue.rules, rule.enabled = true ∧ Version rule read := by
  have hid : read.ruleId ∈ base.queue.rules.map MonitorRule.ruleId := by
    rw [← h.ids]
    exact List.mem_map_of_mem hread
  obtain ⟨rule, hrule, hsame⟩ := List.mem_map.1 hid
  obtain ⟨stored, hkept⟩ := h.kept rule hrule
  obtain ⟨hmem, hstored⟩ := mem_of_filter hkept.only
  obtain rfl : stored = read := h.distinct.eq hmem hread (hstored.trans hsame)
  exact ⟨rule, hrule, (hkept.enabled harmed).symm.trans hen, hkept.version⟩

/-- **A step of the only call.** -/
theorem Tended.step (h : Tended base w) (halone : Alone w e)
    (hannounces : e.stage.Announces base.queue.rules) (hstep : AloneStep w w') :
    ∃ e', Alone w' e' ∧ e'.stage.Announces base.queue.rules ∧ Tended base w' ∧
      w.acted <+: w'.acted := by
  obtain ⟨_, d, q', e', act, _, hfound, hadv, rfl⟩ := hstep
  have honly := halone.only
  rw [hfound] at honly
  cases honly
  have he : w.running[0]? = some e := by rw [hfound]; rfl
  have hset : w.running.set 0 e' = [e'] := by rw [hfound]; rfl
  obtain ⟨-, hgoes⟩ := goes_of_advance hadv
  obtain ⟨hfresh, hids⟩ := halone.fresh.goes halone.distinct hgoes
  have hdist : Distinct q'.rules := by
    unfold Distinct
    rw [hids]
    exact h.distinct
  have hkept : ∀ rule ∈ base.queue.rules, ∃ stored,
      Kept rule (base.queue.recorded rule.ruleId) ⟨q', [e'], w.acted ++ act.toList⟩ stored := by
    intro rule hrule
    obtain ⟨stored, hkept⟩ := h.kept rule hrule
    obtain ⟨stored', hkept', -⟩ := hkept.goes he hadv (halone.reads hkept)
    rw [hset] at hkept'
    exact ⟨stored', hkept'⟩
  have hwritten : Echoes base.queue.rules w.queue q' ∧ e'.stage.Announces base.queue.rules ∧
      ∀ done ∈ act, ∃ rule ∈ base.queue.rules, rule.enabled = true ∧
        done.ruleId = rule.ruleId := by
    have hbefore := halone.fresh
    generalize e.stage = stage at hgoes hbefore hannounces
    generalize e'.stage = stage' at hgoes ⊢
    cases hgoes with
    | @announce handled rest event more hann =>
      have hall : ∀ a ∈ event :: more, Echo base.queue.rules a := hann ▸ hannounces
      exact ⟨echoes_appendEvent (hall event (.head _)) d.now,
        fun a ha => hall a (.tail _ ha), fun _ hnone => (by cases hnone)⟩
    | @act handled rest hit todo _ announce result hann htodo hact =>
      obtain ⟨rule, hrule, hen, hversion⟩ :=
        h.origin (hbefore.1.mem (.head _)) (hbefore.2.1 _ (.head _)) hbefore.2.2.1
      obtain ⟨hechoes, hall⟩ := echoes_action hversion hrule hen hact
      refine ⟨hechoes, hall, fun done hdone => ⟨rule, hrule, hen, ?_⟩⟩
      cases hdone
      exact hversion.ruleId
    | takeUp =>
      exact ⟨.of_events rfl, fun _ ha => (by cases ha), fun _ hnone => (by cases hnone)⟩
    | _ => exact ⟨.of_events rfl, trivial, fun _ hnone => (by cases hnone)⟩
  refine ⟨e', ⟨rfl, hdist, hfresh⟩, hwritten.2.1,
    ⟨hdist, hids.trans h.ids, h.echoes.trans hwritten.1, hkept, fun done hdone => ?_⟩,
    List.prefix_append _ _⟩
  rcases List.mem_append.1 hdone with hdone | hdone
  · exact h.acted done hdone
  · exact hwritten.2.2 done (Option.mem_toList.1 hdone)

/-- **The steps of the only call.** -/
theorem Tended.run (h : Tended base w) (halone : Alone w e)
    (hannounces : e.stage.Announces base.queue.rules)
    (hsteps : Relation.ReflTransGen AloneStep w w') :
    ∃ e', Alone w' e' ∧ Tended base w' ∧ w.acted <+: w'.acted := by
  have hrun : ∃ e', Alone w' e' ∧ e'.stage.Announces base.queue.rules ∧ Tended base w' ∧
      w.acted <+: w'.acted := by
    induction hsteps with
    | refl => exact ⟨e, halone, hannounces, h, List.prefix_rfl⟩
    | tail _ hstep ih =>
      obtain ⟨_, halone₁, hannounces₁, h₁, hacted₁⟩ := ih
      obtain ⟨e₂, halone₂, hannounces₂, h₂, hacted₂⟩ := h₁.step halone₁ hannounces₁ hstep
      exact ⟨e₂, halone₂, hannounces₂, h₂, hacted₁.trans hacted₂⟩
  obtain ⟨e', halone', -, h', hacted⟩ := hrun
  exact ⟨e', halone', h', hacted⟩

/-- **A whole call** leaves the rules tended, and only adds to what has been done. -/
theorem Tended.attempt {limit : Nat} {failed : Option MonitorRule} (h : Tended base w)
    (hatt : Attempt limit w w' failed) : Tended base w' ∧ w.acted <+: w'.acted := by
  obtain ⟨w₁, e, d, hsteps, honly, hover, rfl⟩ := hatt.ends
  have hbegin : Tended base (w.calling limit) := by
    refine ⟨h.distinct, h.ids, h.echoes, fun rule hrule => ?_, h.acted⟩
    obtain ⟨stored, hkept⟩ := h.kept rule hrule
    refine ⟨stored, hkept.frame ⟨rfl, List.prefix_rfl, rfl, rfl⟩ ?_⟩
    rw [hatt.alone]
    exact (atWork_singleton _).trans (work_of_none rfl)
  obtain ⟨_, _, h₁, hacted⟩ :=
    hbegin.run ⟨rfl, h.distinct, fresh_start limit w.queue⟩ trivial hsteps
  refine ⟨⟨h₁.distinct, h₁.ids, h₁.echoes, fun rule hrule => ?_, h₁.acted⟩, hacted⟩
  obtain ⟨stored, hkept⟩ := h₁.kept rule hrule
  have he : w₁.running[0]? = some e := by rw [honly]; rfl
  have hend := hkept.erase he fun handled hh _ => quiet_of_over hover handled hh
  have hnone : w₁.running.eraseIdx 0 = [] := by
    rw [honly]
    rfl
  rw [hnone] at hend
  exact ⟨stored, hend⟩

/-- What a rule can do at most while nobody else writes: each match that its log has, and one more
action of a one-shot rule. -/
def MonitorRule.most (rule : MonitorRule) (q : MonitorQueue) : Nat :=
  (rule.matchesIn ((q.log rule.jobId).drop (rule.nextSeq - 1))).length + 1

/-- While nobody else writes, a rule has acted at most once for each match that its log has, and
once more if it is a one-shot rule. -/
theorem Tended.length_actedOn (h : Tended base w) (hnone : w.running = [])
    (hrule : rule ∈ base.queue.rules)
    (hdeaf : rule.action = .recordProgress → rule.Deaf base.queue.rules) :
    (w.actedOn rule.ruleId).length ≤ rule.most base.queue := by
  obtain ⟨stored, hkept⟩ := h.kept rule hrule
  unfold MonitorRule.most
  by_cases haction : rule.action = .recordProgress
  · rcases hkept.acted with ⟨-, hacted⟩ | ⟨_, _, hat, -⟩
    · have hpre := matchesIn_window rule w.queue rule.nextSeq stored.nextSeq
      rw [(hdeaf haction).matchesIn h.echoes] at hpre
      have hlen := hpre.length_le
      rw [hacted]
      unfold MonitorRule.due
      rw [if_pos haction]
      omega
    · rw [hnone] at hat
      cases hat
  · rcases hkept.once haction with hacted | ⟨_, hacted, -⟩
    · rw [hacted]
      exact Nat.zero_le _
    · rw [hacted]
      exact Nat.le_add_left 1 _

omit [Text] in
/-- Actions on given rules are no more than those on each of them. -/
theorem length_acts_le (bound : MonitorRule → Nat) (rules : List MonitorRule) (acts : List Act)
    (hrules : ∀ act ∈ acts, ∃ rule ∈ rules, act.ruleId = rule.ruleId)
    (hbd : ∀ rule ∈ rules, (acts.filter fun act => act.ruleId = rule.ruleId).length ≤ bound rule) :
    acts.length ≤ (rules.map bound).sum := by
  induction rules generalizing acts with
  | nil =>
    rcases acts with _ | ⟨act, acts⟩
    · exact le_rfl
    · obtain ⟨rule, hrule, -⟩ := hrules act (.head _)
      cases hrule
  | cons rule rules ih =>
    have hfirst := hbd rule (.head _)
    have hrest := ih (acts.filter fun act => !decide (act.ruleId = rule.ruleId)) ?_ ?_
    · rw [List.map_cons, List.sum_cons,
        List.length_eq_length_filter_add fun act => decide (act.ruleId = rule.ruleId)]
      exact Nat.add_le_add hfirst hrest
    · intro act hact
      obtain ⟨hact, hne⟩ := List.mem_filter.1 hact
      obtain ⟨other, hother, hid⟩ := hrules act hact
      rcases List.mem_cons.1 hother with rfl | hother
      · simp [hid] at hne
      · exact ⟨other, hother, hid⟩
    · intro other hother
      refine le_trans (List.Sublist.length_le ?_) (hbd other (.tail _ hother))
      exact List.filter_sublist.filter _

/-- **The rules come to act no more**, where no `record_progress` rule hears what they write. -/
theorem Idle.acts_no_more (hidle : Idle w)
    (hdeaf : ∀ rule ∈ w.queue.rules, rule.enabled = true → rule.action = .recordProgress →
      rule.Deaf w.queue.rules)
    {calls : Nat → World} (hbegin : calls 0 = w)
    (hcalls : ∀ n, ∃ limit failed, Attempt limit (calls n) (calls (n + 1)) failed) :
    ∃ n, ∀ m, n ≤ m → (calls m).acted = (calls n).acted := by
  have htended : ∀ n, Tended w (calls n) := by
    intro n
    induction n with
    | zero =>
      rw [hbegin]
      exact hidle.tended
    | succ n ih =>
      obtain ⟨limit, failed, hatt⟩ := hcalls n
      exact (ih.attempt hatt).1
  have hgrow : ∀ n m, n ≤ m → (calls n).acted <+: (calls m).acted := by
    intro n m hle
    induction hle with
    | refl => exact List.prefix_rfl
    | @step m _ ih =>
      obtain ⟨limit, failed, hatt⟩ := hcalls m
      exact ih.trans ((htended m).attempt hatt).2
  have hnone : ∀ n, (calls n).running = [] := by
    intro n
    obtain ⟨limit, failed, hatt⟩ := hcalls n
    exact hatt.alone
  let enabled := w.queue.rules.filter (·.enabled)
  let bound := (enabled.map fun rule => rule.most w.queue).sum
  have hbd : ∀ n, (calls n).acted.length ≤ bound := by
    intro n
    refine length_acts_le _ enabled _ (fun act hact => ?_) fun rule hrule => ?_
    · obtain ⟨rule, hrule, hen, hid⟩ := (htended n).acted act hact
      exact ⟨rule, List.mem_filter.2 ⟨hrule, hen⟩, hid⟩
    · obtain ⟨hrule, hen⟩ := List.mem_filter.1 hrule
      have hmost := (htended n).length_actedOn (hnone n) hrule (hdeaf rule hrule hen)
      unfold World.actedOn at hmost
      rwa [List.length_map] at hmost
  -- the call after which most has been done
  let left : Nat → Nat := fun n => bound - (calls n).acted.length
  refine ⟨Function.argmin left, fun m hle => ?_⟩
  have hpre := hgrow _ _ hle
  have hleast : left (Function.argmin left) ≤ left m := Function.argmin_le left m
  have hthere := hbd (Function.argmin left)
  have hhere := hbd m
  refine (List.IsPrefix.eq_of_length_le hpre ?_).symm
  show (calls m).acted.length ≤ (calls (Function.argmin left)).acted.length
  have hless : bound - (calls (Function.argmin left)).acted.length ≤
    bound - (calls m).acted.length := hleast
  omega

/-! ### A rule that is never reached -/

/-- A whole call that nothing disturbs, however it ends. -/
def WholeCall (w w' : World) : Prop :=
  w.running = [] ∧ ∃ limit, 1 ≤ limit ∧ limit ≤ maxPageRecords ∧ ∃ w₁ e d,
    Relation.ReflTransGen AloneStep (w.calling limit) w₁ ∧ w₁.running = [e] ∧
      ((∃ results, e.advance d w₁.queue = .returns results) ∨
        ∃ error, e.advance d w₁.queue = .raises error) ∧
      w' = { w₁ with running := [] }

/-- The call scans, or has the enabled rules before it. -/
def Stage.Before (enabled : List MonitorRule) : Stage → Prop
  | .scanning _ _ _ => True
  | .between rest => rest = enabled
  | .handling _ _ => False

/-- **A call does not get past a first rule whose pattern does not compile.** -/
theorem before_step (hfirst : w.queue.rules.filter (·.enabled) = bad :: rest)
    (harmed : bad.triggeredAt = none) (hpat : Text.compiles bad.pattern = false)
    (halone : Alone w e) (hbefore : e.stage.Before (bad :: rest)) (hstep : AloneStep w w') :
    ∃ e', Alone w' e' ∧ e'.stage.Before (bad :: rest) ∧ w'.queue = w.queue ∧
      w'.acted = w.acted := by
  obtain ⟨found, d, q', e', act, _, hfound, hadv, rfl⟩ := hstep
  have honly := halone.only
  rw [hfound] at honly
  cases honly
  obtain ⟨-, hgoes⟩ := goes_of_advance hadv
  obtain ⟨hfresh, hids⟩ := halone.fresh.goes halone.distinct hgoes
  have hdist : Distinct q'.rules := by
    unfold Distinct
    rw [hids]
    exact halone.distinct
  have hold := halone.fresh
  have hsame : q' = w.queue ∧ act = none ∧ e'.stage.Before (bad :: rest) := by
    generalize e.stage = stage at hgoes hold hbefore
    generalize e'.stage = stage' at hgoes ⊢
    cases hgoes with
    | scan => exact ⟨rfl, rfl, trivial⟩
    | @scanned head position found hhead =>
      obtain ⟨hlen, _, hfound'⟩ := hold
      rw [List.take_of_length_le (hlen.symm.trans_le hhead), hfirst] at hfound'
      exact ⟨rfl, rfl, hfound'⟩
    | skip htrig =>
      cases hbefore
      rw [harmed] at htrig
      cases htrig
    | takeUp htrig hcompiles =>
      cases hbefore
      rw [hpat] at hcompiles
      cases hcompiles
    | announce | act | writeBack => cases hbefore
  obtain ⟨rfl, rfl, hstg⟩ := hsame
  exact ⟨e', ⟨rfl, hdist, hfresh⟩, hstg, rfl, List.append_nil _⟩

/-- **Behind such a rule nothing ever happens.** -/
theorem WholeCall.nothing (hdist : Distinct w.queue.rules)
    (hfirst : w.queue.rules.filter (·.enabled) = bad :: rest) (harmed : bad.triggeredAt = none)
    (hpat : Text.compiles bad.pattern = false) (h : WholeCall w w') : w' = w := by
  obtain ⟨hnone, limit, _, _, w₁, e, d, hsteps, -, -, rfl⟩ := h
  have hrun : ∃ e₁, Alone w₁ e₁ ∧ e₁.stage.Before (bad :: rest) ∧ w₁.queue = w.queue ∧
      w₁.acted = w.acted := by
    induction hsteps with
    | refl =>
      exact ⟨Evaluator.start limit w.queue, ⟨rfl, hdist, fresh_start limit w.queue⟩, trivial,
        rfl, rfl⟩
    | tail _ hstep ih =>
      obtain ⟨e₁, halone, hbefore, hqueue, hacted⟩ := ih
      obtain ⟨e₂, halone', hbefore', hqueue', hacted'⟩ :=
        before_step (by rw [hqueue]; exact hfirst) harmed hpat halone hbefore hstep
      exact ⟨e₂, halone', hbefore', hqueue'.trans hqueue, hacted'.trans hacted⟩
  obtain ⟨e₁, -, -, hqueue, hacted⟩ := hrun
  obtain ⟨queue, _, acted⟩ := w
  cases hnone
  exact congrArg₂ (fun q acts => World.mk q [] acts) hqueue hacted

end

/-- A rule whose pattern is an open bracket, created before a rule that has a match. -/
def starvedWorld : World where
  queue := ⟨[{ sampleRule with ruleId := ⟨"rule_0", by decide⟩, pattern := "(" }, sampleRule],
    [⟨sampleJob.jobId, 1, "stdout.delta", "done", 0, []⟩], [], []⟩
  running := []
  acted := []

/-- **One bad pattern starves a sound rule**: it has a match, and no number of calls acts on it. -/
theorem bad_pattern_starves_rule :
    Idle starvedWorld ∧ sampleRule ∈ starvedWorld.queue.rules ∧ sampleRule.enabled = true ∧
      @MonitorRule.Sound sampleText sampleRule ∧
      @MonitorRule.matchesIn sampleText sampleRule (starvedWorld.queue.log sampleRule.jobId) ≠ [] ∧
      ∀ w, Relation.ReflTransGen (@WholeCall sampleText) starvedWorld w →
        w.actedOn sampleRule.ruleId = [] := by
  let := sampleText
  have hdist : Distinct starvedWorld.queue.rules := by
    unfold Distinct
    decide +kernel
  refine ⟨⟨rfl, rfl, hdist⟩, List.mem_pair.2 (.inr rfl), rfl, sound_sample, ?_, ?_⟩
  · decide +kernel
  · intro w hcalls
    have hsame : w = starvedWorld := by
      induction hcalls with
      | refl => rfl
      | tail _ hcall ih =>
        rw [ih] at hcall
        exact hcall.nothing hdist rfl rfl rfl
    rw [hsame]
    rfl

section

variable [Text] {w : World}

/-- **The rules do not stand in each other's way** where each call fails at most at the last rule it
has to take up, before it has acted on it.  Every other rule acts on its matches within as many
calls as its log had events; if no `record_progress` rule has a match in the events that the actions
append, the calls come to act no more; and each call comes to its end. -/
theorem monitor_rules_independent (hidle : Idle w) :
    (∀ rule ∈ w.queue.rules, rule.enabled = true → rule.triggeredAt = none →
      ∀ n w', Attempts rule.ruleId n w w' → (w.queue.log rule.jobId).length ≤ n →
        rule.due ((w.queue.log rule.jobId).drop (rule.nextSeq - 1)) <+: w'.actedOn rule.ruleId) ∧
    ((∀ rule ∈ w.queue.rules, rule.enabled = true → rule.action = .recordProgress →
        rule.Deaf w.queue.rules) →
      ∀ calls : Nat → World, calls 0 = w →
        (∀ n, ∃ limit failed, Attempt limit (calls n) (calls (n + 1)) failed) →
          ∃ n, ∀ m, n ≤ m → (calls m).acted = (calls n).acted) ∧
    ∀ limit, 1 ≤ limit → limit ≤ maxPageRecords → ∃ w', WholeCall w w' := by
  refine ⟨fun rule hrule hen harmed n w' hatts hn =>
      hatts.acts hidle hrule hen harmed hn,
    fun hdeaf calls hbegin hcalls => hidle.acts_no_more hdeaf hbegin hcalls,
    fun limit hpos hle => ?_⟩
  have halone : Alone (w.calling limit) (Evaluator.start limit w.queue) :=
    ⟨rfl, hidle.distinct, fresh_start limit w.queue⟩
  let d : Draw := ⟨sampleRule.ruleId, 0, false, false⟩
  obtain ⟨w₁, e₁, hsteps, halone₁, -, hend⟩ := halone.ends (d := d) rfl
  exact ⟨_, hidle.running, limit, hpos, hle, w₁, e₁, d, hsteps, halone₁.only, hend, rfl⟩

end

/-- A `record_progress` rule that reads the output of the job only. -/
def listeningRule : MonitorRule :=
  { sampleRule with
    ruleId := ⟨"rule_0", by decide⟩, action := .recordProgress, eventTypes := ["stdout.delta"] }

/-- The rule listens to no event that the monitor appends. -/
theorem deaf_listeningRule (rules : List MonitorRule) :
    @MonitorRule.Deaf sampleText listeningRule rules := by
  intro a hecho _ seq now
  cases hecho <;> rfl

/-- A rule whose pattern does not compile, created after two sound rules. -/
def mixedWorld : World where
  queue := ⟨[listeningRule, sampleRule,
      { sampleRule with ruleId := ⟨"rule_2", by decide⟩, pattern := "(" }],
    [⟨sampleJob.jobId, 1, "stdout.delta", "done", 0, []⟩], [], []⟩
  running := []
  acted := []

/-- A call fails at the last of three rules and acts on the other two; and however often it is
repeated, the rules come to rest. -/
theorem monitor_rules_independent_mixed :
    (∃ w, (∀ rule ∈ [listeningRule, sampleRule], @Attempts sampleText rule.ruleId 1 mixedWorld w ∧
        @MonitorRule.due sampleText rule (mixedWorld.queue.log sampleJob.jobId) <+:
          w.actedOn rule.ruleId ∧ w.actedOn rule.ruleId ≠ [])) ∧
      ∀ calls : Nat → World, calls 0 = mixedWorld →
        (∀ n, ∃ limit failed, @Attempt sampleText limit (calls n) (calls (n + 1)) failed) →
          ∃ n, ∀ m, n ≤ m → (calls m).acted = (calls n).acted := by
  let := sampleText
  have hidle : Idle mixedWorld := ⟨rfl, rfl, by unfold Distinct; decide +kernel⟩
  have hattempt : Attempt 100 mixedWorld (mixedWorld.called 12) mixedWorld.queue.rules[2] :=
    attempt_of_ends rfl ⟨by decide, by decide⟩ rfl (by decide +kernel) (by decide +kernel)
  obtain ⟨hacts, hrests, -⟩ := monitor_rules_independent hidle
  refine ⟨⟨mixedWorld.called 12, fun rule hrule => ?_⟩, hrests fun rule hrule _ haction => ?_⟩
  · have hother : ∀ r, some mixedWorld.queue.rules[2] = some r → r.ruleId ≠ rule.ruleId := by
      rintro r ⟨⟩
      revert rule
      decide +kernel
    have hattempts : Attempts rule.ruleId 1 mixedWorld (mixedWorld.called 12) :=
      .attempt (.start _) hattempt hother
    refine ⟨hattempts, ?_⟩
    rcases List.mem_pair.1 hrule with rfl | rfl
    · exact ⟨hacts _ (.head _) rfl rfl _ _ hattempts (by decide +kernel), by decide +kernel⟩
    · exact ⟨hacts _ (.tail _ (.head _)) rfl rfl _ _ hattempts (by decide +kernel),
        by decide +kernel⟩
  · -- the only rule that records progress
    rcases List.mem_cons.1 hrule with rfl | hrule
    · exact deaf_listeningRule _
    · rcases List.mem_pair.1 hrule with rfl | rfl <;> cases haction

end Monitor
end ClioQueue
