/-
# A call that nothing disturbs

A call of `evaluate_monitor_rules` that runs alone comes to its end.  It has read the records as they
are when it takes the rules up (`Stage.Fresh`).  When it returns, or fails at the last rule that it
had to take up, it has drained at least one new event for every other armed rule whose log has one
(`Attempt.drains`).
-/

import ClioQueue.Monitor.ActsOnce

namespace ClioQueue
namespace Monitor

section

variable [Text]

/-- A step of the only call. -/
def AloneStep (w w' : World) : Prop :=
  ∃ e d q' e' act, d.refused = false ∧ w.running = [e] ∧ e.advance d w.queue = .going q' e' act ∧
    w' = ⟨q', [e'], w.acted ++ act.toList⟩

/-- The world in which a call begins alone. -/
def World.calling (w : World) (limit : Nat) : World :=
  { w with running := [Evaluator.start limit w.queue] }

/-- The call is at the last rule it has to take up, and has not acted on it. -/
def Evaluator.AtLast (e : Evaluator) (failing : MonitorRule) : Prop :=
  e.stage = .between [failing] ∨
    ∃ handled, e.stage = .handling handled [] ∧ handled.rule = failing ∧ handled.results = []

/-- How a call ends: it returns, or it fails at the last rule it had to take up. -/
def Evaluator.Over (e : Evaluator) (d : Draw) (q : MonitorQueue) : Option MonitorRule → Prop
  | none => ∃ results, e.advance d q = .returns results
  | some failing => e.AtLast failing ∧ ∃ error, e.advance d q = .raises error

/-- A whole call that nothing disturbs, and the rule at which it fails, if it does. -/
structure Attempt (limit : Nat) (w w' : World) (failed : Option MonitorRule) : Prop where
  alone : w.running = []
  limit_pos : 1 ≤ limit
  limit_le : limit ≤ maxPageRecords
  ends : ∃ w₁ e d, Relation.ReflTransGen AloneStep (w.calling limit) w₁ ∧ w₁.running = [e] ∧
    e.Over d w₁.queue failed ∧ w' = { w₁ with running := [] }

/-- A whole call that nothing disturbs, and that returns. -/
def Call (limit : Nat) (w w' : World) : Prop := Attempt limit w w' none

end

/-! ### What the call has read -/

/-- The records have distinct ids. -/
def Distinct (rules : List MonitorRule) : Prop := (rules.map MonitorRule.ruleId).Nodup

theorem Distinct.eq {rules : List MonitorRule} (h : Distinct rules) {a b : MonitorRule}
    (ha : a ∈ rules) (hb : b ∈ rules) (hid : a.ruleId = b.ruleId) : a = b :=
  List.inj_on_of_nodup_map h ha hb hid

theorem distinct_creates {rules : List MonitorRule} {rule : MonitorRule} (h : Distinct rules)
    (hfresh : ∀ r ∈ rules, r.ruleId ≠ rule.ruleId) : Distinct (rules ++ [rule]) := by
  unfold Distinct
  rw [List.map_append, List.map_singleton, List.nodup_append]
  refine ⟨h, List.nodup_singleton _, fun a ha b hb => ?_⟩
  obtain ⟨r, hr, rfl⟩ := List.mem_map.1 ha
  rw [List.mem_singleton.1 hb]
  exact hfresh r hr

theorem ids_putRule (q : MonitorQueue) (rule : MonitorRule) :
    (q.putRule rule).rules.map MonitorRule.ruleId = q.rules.map MonitorRule.ruleId := by
  unfold MonitorQueue.putRule
  rw [List.map_map]
  refine List.map_congr_left fun r _ => ?_
  show (if r.ruleId = rule.ruleId then rule else r).ruleId = r.ruleId
  split
  · rename_i hid
    exact hid.symm
  · rfl

/-- Records with other ids stay where they are. -/
theorem sublist_putRule {q : MonitorQueue} {rule : MonitorRule} {rest : List MonitorRule}
    (h : rest.Sublist q.rules) (hne : ∀ r ∈ rest, r.ruleId ≠ rule.ruleId) :
    rest.Sublist (q.putRule rule).rules := by
  have hsame : rest.map (fun r => if r.ruleId = rule.ruleId then rule else r) = rest := by
    refine (List.map_congr_left fun r hr => ?_).trans (List.map_id rest)
    exact if_neg (hne r hr)
  rw [← hsame]
  exact h.map _

section

variable [Text]

/-- What a call has read is what is stored: the rules it has yet to take up are stored and enabled,
and the matches it has yet to act on are matches. -/
def Stage.Fresh (rules : List MonitorRule) : Stage → Prop
  | .scanning head position found =>
    head = rules.length ∧ position ≤ rules.length ∧ found = (rules.take position).filter (·.enabled)
  | .between rest => rest.Sublist rules ∧ ∀ r ∈ rest, r.enabled = true
  | .handling handled rest =>
    (handled.rule :: rest).Sublist rules ∧ (∀ r ∈ handled.rule :: rest, r.enabled = true) ∧
      handled.rule.triggeredAt = none ∧ ∀ hit ∈ handled.todo, ∃ event, hit ∈ handled.rule.hits event

theorem fresh_start (limit : Nat) (q : MonitorQueue) :
    (Evaluator.start limit q).stage.Fresh q.rules := ⟨rfl, Nat.zero_le _, rfl⟩

/-- **A step keeps it**, and keeps the ids. -/
theorem Stage.Fresh.goes {d : Draw} {limit : Nat} {q q' : MonitorQueue} {stage stage' : Stage}
    {act : Option Act} (h : stage.Fresh q.rules) (hdist : Distinct q.rules)
    (hgoes : Goes d limit q stage q' stage' act) :
    stage'.Fresh q'.rules ∧ q'.rules.map MonitorRule.ruleId = q.rules.map MonitorRule.ruleId := by
  cases hgoes with
  | @scan head head' position found rule hrule hhead =>
    obtain ⟨hlen, hle, hfound⟩ := h
    obtain ⟨hlt, _⟩ := List.getElem?_eq_some_iff.1 hrule
    refine ⟨⟨?_, hlt, ?_⟩, rfl⟩
    · rw [hhead, hlen]
      split <;> rfl
    · rw [List.take_add_one, hrule, Option.toList_some, List.filter_append, ← hfound,
        List.filter_singleton]
      cases rule.enabled <;> simp
  | scanned =>
    obtain ⟨hlen, hle, hfound⟩ := h
    rw [hfound]
    refine ⟨⟨List.filter_sublist.trans (List.take_sublist ..), fun r hr => ?_⟩, rfl⟩
    exact (List.mem_filter.1 hr).2
  | skip =>
    exact ⟨⟨List.sublist_of_cons_sublist h.1, fun r hr => h.2 r (.tail _ hr)⟩, rfl⟩
  | takeUp htrig =>
    refine ⟨⟨h.1, h.2, htrig, fun hit hhit => ?_⟩, rfl⟩
    obtain ⟨event, -, hev⟩ := exists_of_mem_due hhit
    exact ⟨event, hev⟩
  | announce => exact ⟨h, rfl⟩
  | act hann htodo hact =>
    obtain ⟨hrules, -, -⟩ := applyMonitorRuleAction_ok hact
    rw [hrules]
    refine ⟨⟨h.1, h.2.1, h.2.2.1, fun hit hhit => h.2.2.2 hit ?_⟩, rfl⟩
    rw [htodo]
    exact .tail _ hhit
  | @writeBack handled rest =>
    refine ⟨⟨sublist_putRule (List.sublist_of_cons_sublist h.1) fun r hr => ?_,
      fun r hr => h.2.1 r (.tail _ hr)⟩, ids_putRule q _⟩
    have hnd : ((handled.rule :: rest).map MonitorRule.ruleId).Nodup :=
      hdist.sublist (h.1.map _)
    rw [List.map_cons, List.nodup_cons] at hnd
    intro hid
    exact hnd.1 (List.mem_map.2 ⟨r, hr, hid⟩)

variable {rule stored stored' : MonitorRule} {old : List ProgressRecord} {w w' : World}
  {d : Draw} {ruleId : DurableRecordId} {e : Evaluator} {q q' : MonitorQueue}
  {limit n target : Nat} {act : Option Act} {failed : Option MonitorRule} {error : RelayError}
  {hit : RelayEvent × Match} {stage stage' : Stage}

/-- What holds of a world in which one call runs alone. -/
structure Alone (w : World) (e : Evaluator) : Prop where
  only : w.running = [e]
  distinct : Distinct w.queue.rules
  fresh : e.stage.Fresh w.queue.rules

/-- **The only call takes a rule up** with the stored record in hand. -/
theorem Alone.reads (h : Alone w e) (hkept : Kept rule old w stored) (other : MonitorRule)
    (rest : List MonitorRule) (hstg : e.stage = .between (other :: rest))
    (hid : other.ruleId = rule.ruleId) (_ : other.triggeredAt = none) :
    w.queue.rules.filter (fun r => r.ruleId = rule.ruleId) = [other] ∧
      atWork w.running rule.ruleId = [] := by
  constructor
  · have hfresh := h.fresh
    rw [hstg] at hfresh
    have hmem : other ∈ w.queue.rules := hfresh.1.mem (.head _)
    have hfilt : other ∈ w.queue.rules.filter fun r => r.ruleId = rule.ruleId :=
      List.mem_filter.2 ⟨hmem, decide_eq_true hid⟩
    rw [hkept.only] at hfilt ⊢
    rw [List.mem_singleton.1 hfilt]
  · rw [h.only, atWork_singleton]
    refine work_of_none ?_
    unfold Evaluator.handled
    rw [hstg]

/-! ### Every armed rule is reached -/

/-- The call has moved the rule on to `target`, or is about to: it has drained so far, or the rule is
among those it has yet to take up. -/
def Stage.Covers (stored : MonitorRule) (target : Nat) : Stage → Prop
  | .scanning _ _ _ => True
  | .between rest => stored ∈ rest ∨ target ≤ stored.nextSeq
  | .handling handled rest =>
    stored ∈ rest ∨ target ≤ stored.nextSeq ∨ handled.rule = stored ∧ target ≤ handled.nextSeq

omit [Text] in
theorem mem_of_filter {rules : List MonitorRule}
    (h : rules.filter (fun r => r.ruleId = ruleId) = [stored]) :
    stored ∈ rules ∧ stored.ruleId = ruleId := by
  have hone : stored ∈ rules.filter fun r => r.ruleId = ruleId := by
    rw [h]
    exact List.mem_singleton_self stored
  exact ⟨List.mem_of_mem_filter hone, of_decide_eq_true (List.mem_filter.1 hone).2⟩

/-- What is drained moves the cursor past the next event, if the log has one. -/
theorem target_le_takeUp (hlim : 1 ≤ limit)
    (h : target ≤ max stored.nextSeq (min (stored.nextSeq + 1) ((q.log stored.jobId).length + 1))) :
    target ≤ (stored.takeUp (q.nextEvents stored.jobId stored.nextSeq limit)).nextSeq := by
  have hpos := stored.nextSeq_pos
  show target ≤ stored.nextSeq + (q.nextEvents stored.jobId stored.nextSeq limit).length
  unfold MonitorQueue.nextEvents
  rw [List.length_take, List.length_drop]
  omega

/-- **A step of the only call** brings an armed rule closer to its turn, and leaves one that has had
its turn. -/
theorem AloneStep.covers {e' : Evaluator} (h : Alone w e) (hkept : Kept rule old w stored)
    (hkept' : Kept rule old w' stored')
    (harmed : target ≤ stored.nextSeq ∨ stored.enabled = true ∧ stored.triggeredAt = none)
    (hlim : 1 ≤ e.limit)
    (htgt : target ≤ max stored.nextSeq (min (stored.nextSeq + 1) ((w.queue.log rule.jobId).length + 1)))
    (hgoes : Goes d e.limit w.queue e.stage w'.queue e'.stage act)
    (hcov : e.stage.Covers stored target) :
    e'.stage.Covers stored' target ∧ (stored' = stored ∨ target ≤ stored'.nextSeq) := by
  obtain ⟨hmem, hid⟩ := mem_of_filter hkept.only
  have honly' := hkept'.only
  have hfresh := h.fresh
  have hsame : w'.queue.rules = w.queue.rules → stored' = stored := by
    intro hrules
    rw [hrules, hkept.only] at honly'
    exact (List.singleton_inj.1 honly').symm
  have hforward : ∀ handled rest, e.stage = .handling handled rest →
      handled.rule.ruleId = rule.ruleId → stored.nextSeq ≤ handled.nextSeq := by
    intro handled rest hstg hrule
    have he : w.running[0]? = some e := by
      rw [h.only]
      rfl
    obtain ⟨_, hdone, -⟩ := hkept.at he (handled_of_stage hstg) hrule
    exact hdone.forward
  rw [← hkept.version.jobId] at htgt
  generalize e'.stage = stage' at *
  generalize e.stage = stage at *
  generalize hq : w'.queue = q' at *
  cases hgoes with
  | scan => exact ⟨trivial, .inl (hsame rfl)⟩
  | @scanned head position found hhead =>
    rw [hsame rfl]
    refine ⟨?_, .inl rfl⟩
    obtain ⟨hlen, _, hfound⟩ := hfresh
    rw [List.take_of_length_le (hlen.symm.trans_le hhead)] at hfound
    rw [hfound]
    rcases harmed with hdone | ⟨henabled, -⟩
    · exact .inr hdone
    · exact .inl (List.mem_filter.2 ⟨hmem, henabled⟩)
  | skip htrig =>
    rw [hsame rfl]
    refine ⟨?_, .inl rfl⟩
    rcases hcov with hin | hdone
    · rcases List.mem_cons.1 hin with rfl | hin
      · rcases harmed with hdone | ⟨-, harmed⟩
        · exact .inr hdone
        · rw [harmed] at htrig
          cases htrig
      · exact .inl hin
    · exact .inr hdone
  | @takeUp =>
    rw [hsame rfl]
    refine ⟨?_, .inl rfl⟩
    rcases hcov with hin | hdone
    · rcases List.mem_cons.1 hin with rfl | hin
      · exact .inr (.inr ⟨rfl, target_le_takeUp hlim htgt⟩)
      · exact .inl hin
    · exact .inr (.inl hdone)
  | announce =>
    rw [hsame rfl]
    exact ⟨hcov, .inl rfl⟩
  | act hann htodo hact =>
    rw [hsame (applyMonitorRuleAction_ok hact).1]
    exact ⟨hcov, .inl rfl⟩
  | @writeBack handled rest =>
    have hread : handled.rule ∈ w.queue.rules := hfresh.1.mem (.head _)
    have hnd : ((handled.rule :: rest).map MonitorRule.ruleId).Nodup :=
      h.distinct.sublist (hfresh.1.map _)
    rw [List.map_cons, List.nodup_cons] at hnd
    by_cases hrule : handled.rule.ruleId = rule.ruleId
    · -- the rule itself is written back
      have hstored : handled.rule = stored := h.distinct.eq hread hmem (hrule.trans hid.symm)
      have hwritten : stored' = handled.written d.now := by
        have hfilt : (w.queue.putRule (handled.written d.now)).rules.filter
            (fun r => r.ruleId = rule.ruleId) = [handled.written d.now] := by
          have hw : (handled.written d.now).ruleId = rule.ruleId := hrule
          have honly := hkept.only
          rw [← hw] at honly ⊢
          exact MonitorQueue.filter_putRule_self honly
        rw [hfilt] at honly'
        exact (List.singleton_inj.1 honly').symm
      have hreach : target ≤ (handled.written d.now).nextSeq := by
        rcases hcov with hin | hdone | ⟨-, hdone⟩
        · exact absurd (List.mem_map.2 ⟨stored, hin, by rw [hstored]⟩) hnd.1
        · exact hdone.trans (hforward _ _ rfl hrule)
        · exact hdone
      rw [hwritten]
      exact ⟨.inr hreach, .inr hreach⟩
    · have hstored : stored' = stored := by
        have hfilt := MonitorQueue.filter_putRule_of_ne (q := w.queue)
          (show (handled.written d.now).ruleId ≠ rule.ruleId from hrule)
        rw [hfilt, hkept.only] at honly'
        exact (List.singleton_inj.1 honly').symm
      rw [hstored]
      refine ⟨?_, .inl rfl⟩
      rcases hcov with hin | hdone | ⟨hread', -⟩
      · exact .inl hin
      · exact .inr hdone
      · exact absurd (by rw [hread', hid]) hrule

/-- A step of a call lets the logs grow. -/
theorem Goes.log (h : Goes d limit q stage q' stage' act) (jobId : DurableRecordId) :
    q.log jobId <+: q'.log jobId := by
  cases h with
  | announce => exact MonitorQueue.log_appendEvent _ _ _
  | act hann htodo hact => exact (applyMonitorRuleAction_ok hact).2.1 _
  | _ => exact List.prefix_rfl

/-- What is kept for a rule along the steps of the only call. -/
structure Underway (rule : MonitorRule) (old : List ProgressRecord) (w : World) (e : Evaluator)
    (stored : MonitorRule) (target : Nat) : Prop where
  alone : Alone w e
  kept : Kept rule old w stored
  limit : 1 ≤ e.limit
  armed : target ≤ stored.nextSeq ∨ stored.enabled = true ∧ stored.triggeredAt = none
  covers : e.stage.Covers stored target
  within : target ≤ max stored.nextSeq
    (min (stored.nextSeq + 1) ((w.queue.log rule.jobId).length + 1))

/-- **A call begins alone** with what is kept for a rule. -/
theorem Underway.begin (hnone : w.running = []) (hlim : 1 ≤ limit) (hkept : Kept rule old w stored)
    (hdist : Distinct w.queue.rules)
    (harmed : target ≤ stored.nextSeq ∨ stored.enabled = true ∧ stored.triggeredAt = none)
    (hwithin : target ≤ max stored.nextSeq
      (min (stored.nextSeq + 1) ((w.queue.log rule.jobId).length + 1))) :
    Underway rule old (w.calling limit) (Evaluator.start limit w.queue) stored target := by
  refine ⟨⟨rfl, hdist, fresh_start limit w.queue⟩, ?_, hlim, harmed, trivial, hwithin⟩
  refine hkept.frame ⟨rfl, List.prefix_rfl, rfl, rfl⟩ ?_
  rw [hnone]
  exact (atWork_singleton _).trans (work_of_none rfl)

/-- **The only call goes on.** -/
theorem Underway.step (h : Underway rule old w e stored target) (hstep : AloneStep w w') :
    ∃ e' stored', Underway rule old w' e' stored' target ∧ MovesOn stored stored' ∧
      w.queue.log rule.jobId <+: w'.queue.log rule.jobId := by
  obtain ⟨_, d, q', e', _, _, hfound, hadv, rfl⟩ := hstep
  have honly := h.alone.only
  rw [hfound] at honly
  cases honly
  have he : w.running[0]? = some e := by rw [hfound]; rfl
  have hset : w.running.set 0 e' = [e'] := by rw [hfound]; rfl
  obtain ⟨hlim, hgoes⟩ := goes_of_advance hadv
  obtain ⟨hfresh, hids⟩ := h.alone.fresh.goes h.alone.distinct hgoes
  obtain ⟨stored', hkept', hmoves⟩ := h.kept.goes he hadv (h.alone.reads h.kept)
  rw [hset] at hkept'
  obtain ⟨hcov, hsame⟩ :=
    AloneStep.covers h.alone h.kept hkept' h.armed h.limit h.within hgoes h.covers
  have hlog := hgoes.log rule.jobId
  refine ⟨e', stored', ⟨⟨rfl, ?_, hfresh⟩, hkept', hlim ▸ h.limit, ?_, hcov, ?_⟩, hmoves, hlog⟩
  · unfold Distinct
    rw [hids]
    exact h.alone.distinct
  · rcases hsame with rfl | hreach
    · exact h.armed
    · exact .inl hreach
  · have hwithin := h.within
    have hnextSeq := hmoves.nextSeq
    have hlen := hlog.length_le
    show target ≤ max stored'.nextSeq (min (stored'.nextSeq + 1) ((q'.log rule.jobId).length + 1))
    omega

/-- A call that returns has no rule left. -/
theorem between_of_returns {results : List ActionResult} (h : e.advance d q = .returns results) :
    e.stage = .between [] := by
  unfold Evaluator.advance at h
  split at h
  · split at h
    · split at h
      · split at h <;> cases h
      · cases h
    · cases h
  · assumption
  · split at h
    · cases h
    · split at h
      · split at h <;> cases h
      · cases h
  · split at h
    · split at h <;> cases h
    all_goals
      split at h
      · cases h
      · split at h <;> cases h

/-- **The only call, from its beginning**, has kept what is kept for a rule. -/
theorem Underway.run {w₁ : World} (h : Underway rule old w e stored target)
    (hsteps : Relation.ReflTransGen AloneStep w w₁) :
    ∃ e₁ stored₁, Underway rule old w₁ e₁ stored₁ target ∧ MovesOn stored stored₁ ∧
      w.queue.log rule.jobId <+: w₁.queue.log rule.jobId := by
  induction hsteps with
  | refl => exact ⟨e, stored, h, .refl stored, List.prefix_rfl⟩
  | tail _ hstep ih =>
    obtain ⟨e₁, stored₁, hunder, hmoves, hlog⟩ := ih
    obtain ⟨e₂, stored₂, hunder', hmoves', hlog'⟩ := hunder.step hstep
    exact ⟨e₂, stored₂, hunder', hmoves.trans hmoves', hlog.trans hlog'⟩

/-- A call that is over has acted on no rule that it has not written back. -/
theorem quiet_of_over (hover : e.Over d q failed) (handled : Handling)
    (hh : e.handled = some handled) : handled.results = [] := by
  unfold Evaluator.handled at hh
  rcases failed with _ | _
  · obtain ⟨results, hret⟩ := hover
    rw [between_of_returns hret] at hh
    cases hh
  · obtain ⟨hlast | ⟨_, hlast, _, hresults⟩, -⟩ := hover
    · rw [hlast] at hh
      cases hh
    · rw [hlast] at hh
      cases hh
      exact hresults

/-- A call that is over has had its turn at every armed rule but the one at which it fails. -/
theorem Underway.over (h : Underway rule old w e stored target) (hover : e.Over d q failed)
    (hother : ∀ r, failed = some r → r.ruleId ≠ rule.ruleId) : target ≤ stored.nextSeq := by
  have hid := (mem_of_filter h.kept.only).2
  have hcov := h.covers
  rcases failed with _ | failing
  · obtain ⟨_, hret⟩ := hover
    rw [between_of_returns hret] at hcov
    rcases hcov with hin | hdone
    · cases hin
    · exact hdone
  · obtain ⟨hlast | ⟨_, hlast, hrule, -⟩, -⟩ := hover
    · rw [hlast] at hcov
      rcases hcov with hin | hdone
      · rw [List.mem_singleton.1 hin] at hid
        exact absurd hid (hother failing rfl)
      · exact hdone
    · rw [hlast] at hcov
      rcases hcov with hin | hdone | ⟨hread, -⟩
      · cases hin
      · exact hdone
      · rw [← hread, hrule] at hid
        exact absurd hid (hother failing rfl)

/-- **A whole call drains** at least one event for every armed rule whose log has one, but for the
rule at which it fails. -/
theorem Attempt.drains (h : Attempt limit w w' failed) (hkept : Kept rule old w stored)
    (hdist : Distinct w.queue.rules) :
    ∃ stored', Kept rule old w' stored' ∧ Distinct w'.queue.rules ∧ MovesOn stored stored' ∧
      w.queue.log rule.jobId <+: w'.queue.log rule.jobId ∧
      ((∀ r, failed = some r → r.ruleId ≠ rule.ruleId) → stored.enabled = true →
        stored.triggeredAt = none →
          min (stored.nextSeq + 1) ((w.queue.log rule.jobId).length + 1) ≤ stored'.nextSeq) := by
  obtain ⟨w₁, e₁, d, hsteps, honly₁, hover, rfl⟩ := h.ends
  obtain ⟨target, harmed, hwithin, htgt⟩ : ∃ target,
      (target ≤ stored.nextSeq ∨ stored.enabled = true ∧ stored.triggeredAt = none) ∧
      target ≤ max stored.nextSeq (min (stored.nextSeq + 1) ((w.queue.log rule.jobId).length + 1)) ∧
      (stored.enabled = true → stored.triggeredAt = none →
        min (stored.nextSeq + 1) ((w.queue.log rule.jobId).length + 1) ≤ target) := by
    by_cases hboth : stored.enabled = true ∧ stored.triggeredAt = none
    · exact ⟨_, .inr hboth, le_max_right _ _, fun _ _ => le_rfl⟩
    · exact ⟨0, .inl (Nat.zero_le _), Nat.zero_le _, fun hen harm => absurd ⟨hen, harm⟩ hboth⟩
  obtain ⟨e, stored₁, hunder, hmoves, hlog⟩ :=
    (Underway.begin h.alone h.limit_pos hkept hdist harmed hwithin).run hsteps
  have he := hunder.alone.only
  rw [honly₁] at he
  cases he
  have he : w₁.running[0]? = some e₁ := by rw [honly₁]; rfl
  have hend := hunder.kept.erase he fun handled hh _ => quiet_of_over hover handled hh
  have hnone : w₁.running.eraseIdx 0 = [] := by
    rw [honly₁]
    rfl
  rw [hnone] at hend
  exact ⟨stored₁, hend, hunder.alone.distinct, hmoves, hlog, fun hother hen harm =>
    (htgt hen harm).trans (hunder.over hover hother)⟩

/-- Calls that nothing disturbs, one after the other, none of which fails at the rule; between them
rules are created, and others append events. -/
inductive Attempts (ruleId : DurableRecordId) : Nat → World → World → Prop
  | start (w : World) : Attempts ruleId 0 w w
  | attempt {n limit : Nat} {w w₁ w₂ : World} {failed : Option MonitorRule}
      (h : Attempts ruleId n w w₁) (hatt : Attempt limit w₁ w₂ failed)
      (hother : ∀ r, failed = some r → r.ruleId ≠ ruleId) : Attempts ruleId (n + 1) w w₂
  | creates {n : Nat} {w w₁ w₂ : World} {rule : MonitorRule} (h : Attempts ruleId n w w₁)
      (hstep : Step w₁ (.creates rule) w₂) : Attempts ruleId n w w₂
  | others {n : Nat} {w w₁ w₂ : World} {q : MonitorQueue} (h : Attempts ruleId n w w₁)
      (hstep : Step w₁ (.others q) w₂) : Attempts ruleId n w w₂

/-- Between undisturbed calls nothing runs. -/
theorem Attempts.running (h : Attempts ruleId n w w') (hnone : w.running = []) :
    w'.running = [] := by
  induction h with
  | start => exact hnone
  | attempt _ hatt =>
    obtain ⟨_, e, d, -, -, -, rfl⟩ := hatt.ends
    rfl
  | creates _ hstep ih | others _ hstep ih =>
    cases hstep
    exact ih hnone

/-- **Each call drains an event** that a rule has not passed, until the rule is triggered. -/
theorem Attempts.drain (h : Attempts rule.ruleId n w w') (hkept : Kept rule old w stored)
    (hdist : Distinct w.queue.rules) (henabled : rule.enabled = true) :
    ∃ stored', Kept rule old w' stored' ∧ Distinct w'.queue.rules ∧
      w.queue.log rule.jobId <+: w'.queue.log rule.jobId ∧
      (stored'.triggeredAt = none →
        min (stored.nextSeq + n) ((w.queue.log rule.jobId).length + 1) ≤ stored'.nextSeq) := by
  induction h with
  | start => exact ⟨stored, hkept, hdist, List.prefix_rfl, fun _ => min_le_left _ _⟩
  | attempt _ hatt hother ih =>
    obtain ⟨stored₁, hkept₁, hdist₁, hlog, hdrained⟩ := ih hkept hdist
    obtain ⟨stored₂, hkept₂, hdist₂, hmoves, hlog', hnext⟩ :=
      hatt.drains hkept₁ hdist₁
    refine ⟨stored₂, hkept₂, hdist₂, hlog.trans hlog', fun harmed => ?_⟩
    have harmed₁ : stored₁.triggeredAt = none := by
      by_contra htrig
      rw [hmoves.triggered (Option.isSome_iff_ne_none.2 htrig)] at harmed
      exact htrig harmed
    have hbefore := hdrained harmed₁
    have hafter := hnext hother ((hkept₁.enabled harmed₁).trans henabled) harmed₁
    have hlen := hlog.length_le
    omega
  | creates _ hstep ih =>
    obtain ⟨stored₁, hkept₁, hdist₁, hlog, hdrained⟩ := ih hkept hdist
    cases hstep with
    | creates hfresh =>
      exact ⟨stored₁, hkept₁.creates hfresh, distinct_creates hdist₁ hfresh, hlog, hdrained⟩
  | others _ hstep ih =>
    obtain ⟨stored₁, hkept₁, hdist₁, hlog, hdrained⟩ := ih hkept hdist
    cases hstep with
    | others hbeside =>
      refine ⟨stored₁, hkept₁.others hbeside, ?_, hlog.trans (hbeside.log _), hdrained⟩
      show Distinct _
      rw [hbeside.rules]
      exact hdist₁

/-! ### The call comes to its end -/

/-- How far a call is from its end: the records to scan, the rules to take up, and what is left to
do for the present one; an action announces at most two events. -/
def Stage.measure (records : Nat) : Stage → Nat × Nat × Nat
  | .scanning _ position _ => (2, records - position, 0)
  | .between rest => (1, 2 * rest.length, 0)
  | .handling handled rest =>
    (1, 2 * rest.length + 1, 3 * handled.todo.length + handled.announce.length)

theorem length_announce {announce : List Announcement} {result : ActionResult}
    (h : applyMonitorRuleAction rule hit d q = .ok (q', announce, result)) :
    announce.length ≤ 2 := by
  cases leaves_of_action h with
  | emits => exact Nat.zero_le _
  | submits =>
    unfold MonitorQueue.queuedEvent
    split <;> simp
  | records => exact le_rfl

/-- **Every step brings the call closer to its end.** -/
theorem goes_measure (h : Goes d limit q stage q' stage' act) :
    WellFoundedRelation.rel (stage'.measure q'.rules.length) (stage.measure q.rules.length) := by
  cases h with
  | scan hrule =>
    obtain ⟨hlt, -⟩ := List.getElem?_eq_some_iff.1 hrule
    refine Prod.Lex.right _ (Prod.Lex.left _ _ ?_)
    exact Nat.sub_lt_sub_left hlt (Nat.lt_succ_self _)
  | scanned => exact Prod.Lex.left _ _ (show 1 < 2 by omega)
  | @skip rule rest =>
    refine Prod.Lex.right _ (Prod.Lex.left _ _ ?_)
    show 2 * rest.length < 2 * (rule :: rest).length
    rw [List.length_cons]
    omega
  | @takeUp rule rest =>
    refine Prod.Lex.right _ (Prod.Lex.left _ _ ?_)
    show 2 * rest.length + 1 < 2 * (rule :: rest).length
    rw [List.length_cons]
    omega
  | @announce handled rest event more hann =>
    refine Prod.Lex.right _ (Prod.Lex.right _ ?_)
    show 3 * handled.todo.length + more.length < 3 * handled.todo.length + handled.announce.length
    rw [hann, List.length_cons]
    omega
  | @act handled rest hit todo q₁ announce result hann htodo hact =>
    have hlen := length_announce hact
    refine Prod.Lex.right _ (Prod.Lex.right _ ?_)
    show 3 * todo.length + announce.length < 3 * handled.todo.length + handled.announce.length
    rw [htodo, List.length_cons]
    omega
  | @writeBack handled rest =>
    refine Prod.Lex.right _ (Prod.Lex.left _ _ ?_)
    show 2 * rest.length < 2 * rest.length + 1
    omega

/-- **A call that runs alone comes to its end.** -/
theorem Alone.ends {d : Draw} (href : d.refused = false) (w : World) (e : Evaluator)
    (h : Alone w e) :
    ∃ w₁ e₁, Relation.ReflTransGen AloneStep w w₁ ∧ Alone w₁ e₁ ∧
      w₁.queue.rules.length = w.queue.rules.length ∧
      ((∃ results, e₁.advance d w₁.queue = .returns results) ∨
        ∃ error, e₁.advance d w₁.queue = .raises error) := by
  cases hadv : e.advance d w.queue with
  | returns results => exact ⟨w, e, .refl, h, rfl, .inl ⟨results, hadv⟩⟩
  | raises error => exact ⟨w, e, .refl, h, rfl, .inr ⟨error, hadv⟩⟩
  | going q' e' act =>
    have hstep : AloneStep w ⟨q', [e'], w.acted ++ act.toList⟩ :=
      ⟨e, d, q', e', act, href, h.only, hadv, rfl⟩
    obtain ⟨-, hgoes⟩ := goes_of_advance hadv
    obtain ⟨hfresh, hids⟩ := h.fresh.goes h.distinct hgoes
    have halone' : Alone ⟨q', [e'], w.acted ++ act.toList⟩ e' := by
      refine ⟨rfl, ?_, hfresh⟩
      unfold Distinct
      rw [hids]
      exact h.distinct
    have hcloser := goes_measure hgoes
    obtain ⟨w₁, e₁, hsteps, halone₁, hlen, hend⟩ :=
      Alone.ends href ⟨q', [e'], w.acted ++ act.toList⟩ e' halone'
    have hsame : q'.rules.length = w.queue.rules.length := by
      simpa only [List.length_map] using congrArg List.length hids
    exact ⟨w₁, e₁, .head hstep hsteps, halone₁, hlen.trans hsame, hend⟩
termination_by e.stage.measure w.queue.rules.length
decreasing_by exact hcloser

/-- The submission of a rule meets another job under its key. -/
def Conflicts (q : MonitorQueue) (rule : MonitorRule) (hit : RelayEvent × Match) : Prop :=
  rule.action = .submitAgent ∧ ∃ job, agentJob rule hit.1 hit.2 = .ok job ∧
    ∃ other ∈ q.jobs, other.2.idempotencyKey = job.idempotencyKey ∧ other.2 ≠ job

/-- An action fails only because its event cannot be written or because the queue holds something
else in its place. -/
theorem action_error (h : applyMonitorRuleAction rule hit d q = .error error) :
    (∃ error, actionWrite rule hit.1 hit.2 d.id d.now = .error error) ∨ Conflicts q rule hit := by
  unfold applyMonitorRuleAction at h
  rcases hwrite : actionWrite rule hit.1 hit.2 d.id d.now with error' | write
  · exact .inl ⟨error', rfl⟩
  · rw [hwrite, except_ok_bind] at h
    cases write with
    | emit => cases h
    | record => cases h
    | submit job =>
      have hjob : rule.action = .submitAgent ∧ agentJob rule hit.1 hit.2 = .ok job := by
        unfold actionWrite at hwrite
        split at hwrite
        · cases hwrite
        · rename_i haction
          rcases hjob : agentJob rule hit.1 hit.2 with error' | _
          · rw [hjob] at hwrite
            cases hwrite
          · rw [hjob] at hwrite
            cases hwrite
            exact ⟨haction, rfl⟩
        · rcases hrec : progressRecord rule hit.1 hit.2 d.id d.now with error' | record
          all_goals
            rw [hrec] at hwrite
            cases hwrite
      refine .inr ⟨hjob.1, job, hjob.2, ?_⟩
      simp only at h
      rcases hsub : q.submitJob job d.id with error' | _
      · unfold MonitorQueue.submitJob at hsub
        split at hsub
        · cases hsub
        · rename_i existing hfind
          split at hsub
          · cases hsub
          · rename_i hother
            have hkey := List.find?_some hfind
            exact ⟨existing, List.mem_of_find?_eq_some hfind, of_decide_eq_true hkey, hother⟩
      · rw [hsub] at h
        cases h

/-- The log of the job has an event with the reserved key. -/
def Unreadable (q : MonitorQueue) (rule : MonitorRule) : Prop :=
  ∃ event ∈ q.log rule.jobId, event.payload.has "legacy_output" = true

/-- **Why a call raises that runs alone**, over a bounded number of rules: an enabled rule is not
sound, or its log cannot be read, or its submission meets another job under its key. -/
theorem Alone.raises (h : Alone w e) (href : d.refused = false)
    (hbd : w.queue.rules.length ≤ maxMonitorRuleRecords)
    (hraise : e.advance d w.queue = .raises error) :
    ∃ r ∈ w.queue.rules, r.enabled = true ∧
      (¬ r.Sound ∨ Unreadable w.queue r ∨ ∃ hit, Conflicts w.queue r hit) := by
  have hfresh := h.fresh
  rcases hstg : e.stage with ⟨_, _, _⟩ | rest | ⟨handled, rest⟩
  · exfalso
    rw [hstg] at hfresh
    unfold Evaluator.advance at hraise
    simp only [hstg] at hraise
    have hhead := hfresh.1
    split at hraise
    · split at hraise
      · split at hraise
        · rename_i hnone
          have hle := List.getElem?_eq_none_iff.1 hnone
          omega
        · cases hraise
      · omega
    · cases hraise
  · rw [hstg] at hfresh
    unfold Evaluator.advance at hraise
    simp only [hstg] at hraise
    rcases rest with _ | ⟨r, rest⟩
    · cases hraise
    · simp only at hraise
      split at hraise
      · cases hraise
      · split at hraise
        · split at hraise
          · rename_i hdrain
            exact ⟨r, hfresh.1.mem (.head _), hfresh.2 r (.head _),
              .inr (.inl (MonitorQueue.drainEvents_error hdrain))⟩
          · cases hraise
        · rename_i hpat
          exact ⟨r, hfresh.1.mem (.head _), hfresh.2 r (.head _),
            .inl fun hsound => hpat hsound.compiles⟩
  · rw [hstg] at hfresh
    have hmem : handled.rule ∈ w.queue.rules := hfresh.1.mem (.head _)
    refine ⟨handled.rule, hmem, hfresh.2.1 _ (.head _), ?_⟩
    rcases raises_handling hraise (handled_of_stage hstg) with hyes |
        ⟨hit, todo, htodo, error', hact⟩ | ⟨-, error', hupd⟩
    · rw [href] at hyes
      cases hyes
    · rcases action_error hact with ⟨error', hwrite⟩ | hconf
      · refine .inl fun hsound => ?_
        obtain ⟨event, hev⟩ := hfresh.2.2.2 hit (htodo ▸ .head _)
        obtain ⟨_, hok⟩ := hsound.acts event hit hev d.id d.now
        rw [hwrite] at hok
        cases hok
      · exact .inr (.inr ⟨hit, hconf⟩)
    · exfalso
      unfold MonitorQueue.updateMonitorRule at hupd
      split at hupd
      · rename_i hnone
        unfold MonitorQueue.rule? at hnone
        have hne := List.find?_eq_none.1 hnone handled.rule hmem
        exact hne (decide_eq_true rfl)
      · rename_i existing hsome
        unfold MonitorQueue.rule? at hsome
        have hfound := List.find?_some hsome
        have hid : existing.ruleId = handled.rule.ruleId := of_decide_eq_true hfound
        have hsame := h.distinct.eq (List.mem_of_find?_eq_some hsome) hmem hid
        have hjob : existing.jobId = (handled.written d.now).jobId := by
          rw [hsame]
          rfl
        rw [if_pos hjob] at hupd
        cases hupd

end

end Monitor
end ClioQueue
