/-
# A rule is acted upon once

Along every run that is orderly for a rule, its sequence never goes back and a triggered record never
changes; a one-shot rule acts at most once, on the first match from its starting sequence on; and a
`record_progress` rule has one record for each match, in order, in the events that it has passed,
which after enough undisturbed calls are all that there were.  A process that stops between an
action and the write-back is enough to lose this.
-/

import ClioQueue.Monitor.UndisturbedCalls

namespace ClioQueue
namespace Monitor

section

variable [Text]

/-- A run that is orderly for a rule. -/
def OrderlyRun (ruleId : DurableRecordId) : World → World → Prop :=
  Relation.ReflTransGen fun w w' => ∃ move, Orderly ruleId w move ∧ Step w move w'

/-- A rule has just been created, under a fresh id. -/
structure Created (rule : MonitorRule) (w : World) : Prop where
  distinct : Distinct w.queue.rules
  stored : w.queue.rules.filter (fun r => r.ruleId = rule.ruleId) = [rule]
  idle : atWork w.running rule.ruleId = []
  acted : w.actedOn rule.ruleId = []
  recorded : w.queue.recorded rule.ruleId = []

/-- Calls that nothing disturbs, one after the other, all of which return; between them rules are
created, and others append events. -/
inductive Calls : Nat → World → World → Prop
  | start (w : World) : Calls 0 w w
  | call {n limit : Nat} {w w₁ w₂ : World} (h : Calls n w w₁) (hcall : Call limit w₁ w₂) :
      Calls (n + 1) w w₂
  | creates {n : Nat} {w w₁ w₂ : World} {rule : MonitorRule} (h : Calls n w w₁)
      (hstep : Step w₁ (.creates rule) w₂) : Calls n w w₂
  | others {n : Nat} {w w₁ w₂ : World} {q : MonitorQueue} (h : Calls n w w₁)
      (hstep : Step w₁ (.others q) w₂) : Calls n w w₂

variable {rule stored : MonitorRule} {old : List ProgressRecord} {w w' : World}

/-- What is kept for a rule from a world on in which nothing has been done for it yet. -/
theorem Kept.begin (honly : w.queue.rules.filter (fun r => r.ruleId = rule.ruleId) = [rule])
    (hidle : atWork w.running rule.ruleId = []) (hacted : w.actedOn rule.ruleId = []) :
    Kept rule (w.queue.recorded rule.ruleId) w rule := by
  have hdue : rule.due (w.queue.window rule.jobId rule.nextSeq rule.nextSeq) = [] := by
    rw [MonitorQueue.window_self]
    unfold MonitorRule.due
    split <;> rfl
  refine ⟨honly, ⟨rule.nextSeq, rule.nextSeq_pos, rule.enabled, rule.triggeredAt, rfl⟩, le_rfl,
    le_max_left _ _, fun _ hne => absurd hdue hne, fun hne => absurd rfl hne, fun _ => rfl,
    fun _ => rfl, fun _ => ⟨[], (List.append_nil _).symm, ?_⟩, .inl ⟨hidle, ?_⟩⟩
  · rw [hacted]
    exact .nil
  · rw [hacted, hdue]

theorem Created.kept (h : Created rule w) : Kept rule [] w rule := by
  have hkept := Kept.begin h.stored h.idle h.acted
  rwa [h.recorded] at hkept

/-- **What an orderly run keeps for a sound rule.** -/
theorem Kept.run (h : Kept rule old w stored) (hsound : rule.Sound)
    (hrun : OrderlyRun rule.ruleId w w') :
    ∃ stored', Kept rule old w' stored' ∧ MovesOn stored stored' := by
  induction hrun with
  | refl => exact ⟨stored, h, .refl stored⟩
  | tail _ hstep ih =>
    obtain ⟨_, hkept, hmoves⟩ := ih
    obtain ⟨_, hord, hstep⟩ := hstep
    obtain ⟨stored₂, hkept', hmoves'⟩ := hkept.step hsound hord hstep
    exact ⟨stored₂, hkept', hmoves.trans hmoves'⟩

theorem Step.distinct {move : Move} (h : Step w move w') (hdist : Distinct w.queue.rules) :
    Distinct w'.queue.rules := by
  cases h with
  | @goes index d e e' q' act he hadv =>
    obtain ⟨-, hgoes⟩ := goes_of_advance hadv
    generalize e.stage = stage at hgoes
    generalize e'.stage = stage' at hgoes
    cases hgoes with
    | act hann htodo hact =>
      show Distinct q'.rules
      rw [(applyMonitorRuleAction_ok hact).1]
      exact hdist
    | writeBack =>
      show List.Nodup _
      rw [ids_putRule]
      exact hdist
    | _ => exact hdist
  | creates hfresh => exact distinct_creates hdist hfresh
  | others hbeside =>
    show Distinct _
    rw [hbeside.rules]
    exact hdist
  | _ => exact hdist

theorem OrderlyRun.distinct {ruleId : DurableRecordId} (h : OrderlyRun ruleId w w')
    (hdist : Distinct w.queue.rules) : Distinct w'.queue.rules := by
  induction h with
  | refl => exact hdist
  | tail _ hstep ih =>
    obtain ⟨_, -, hstep⟩ := hstep
    exact hstep.distinct ih

/-- A step of the only call is orderly. -/
theorem Underway.orderly {e : Evaluator} {d : Draw} (h : Underway rule old w e stored 0)
    (hquiet : ∀ handled, e.handled = some handled → handled.results ≠ [] → d.refused = false) :
    Orderly rule.ruleId w (.advances 0 d) := by
  intro e' he
  rw [h.alone.only] at he
  cases he
  exact ⟨h.alone.reads h.kept, fun handled hh _ => hquiet handled hh⟩

/-- **A call that nothing disturbs is orderly** for every rule. -/
theorem Attempt.orderly {limit : Nat} {failed : Option MonitorRule} (h : Attempt limit w w' failed)
    (hkept : Kept rule old w stored) (hdist : Distinct w.queue.rules) :
    OrderlyRun rule.ruleId w w' := by
  obtain ⟨w₁, e₁, d, hsteps, honly₁, hover, rfl⟩ := h.ends
  have hsteps' : OrderlyRun rule.ruleId w w₁ ∧ ∃ e stored, Underway rule old w₁ e stored 0 := by
    obtain ⟨hnone, hpos, hle, -⟩ := h
    clear honly₁ hover
    induction hsteps with
    | refl =>
      have hbegins : Step w (.begins limit) _ := .begins ⟨hpos, hle⟩
      rw [hnone, List.nil_append] at hbegins
      exact ⟨.single ⟨.begins limit, trivial, hbegins⟩, _, _,
        .begin hnone hpos hkept hdist (.inl (Nat.zero_le _)) (Nat.zero_le _)⟩
    | tail _ hstep ih =>
      obtain ⟨hrun, e, _, hunder⟩ := ih
      obtain ⟨e', stored', hunder', -⟩ := hunder.step hstep
      obtain ⟨e₀, d₀, q', e₀', act, href, hfound, hadv, rfl⟩ := hstep
      have hgoes : Step _ (.advances 0 d₀) _ := .goes (by rw [hfound]; rfl) hadv
      rw [hfound] at hgoes
      exact ⟨hrun.tail ⟨_, hunder.orderly fun _ _ _ => href, hgoes⟩, e', stored', hunder'⟩
  obtain ⟨hrun, e, _, hunder⟩ := hsteps'
  have he := hunder.alone.only
  rw [honly₁] at he
  cases he
  have horderly : Orderly rule.ruleId w₁ (.advances 0 d) := hunder.orderly fun handled hh hacted =>
    absurd (quiet_of_over hover handled hh) hacted
  have he : w₁.running[0]? = some e₁ := by rw [honly₁]; rfl
  have hnone : w₁.running.eraseIdx 0 = [] := by rw [honly₁]; rfl
  rw [← hnone]
  rcases failed with _ | _
  · obtain ⟨_, hret⟩ := hover
    exact hrun.tail ⟨_, horderly, .returns he hret⟩
  · obtain ⟨-, _, hraise⟩ := hover
    exact hrun.tail ⟨_, horderly, .raises he hraise⟩

/-- Calls that return do not fail at the rule. -/
theorem Calls.attempts {n : Nat} (h : Calls n w w') (ruleId : DurableRecordId) :
    Attempts ruleId n w w' := by
  induction h with
  | start => exact .start _
  | call _ hcall ih => exact .attempt ih hcall fun _ hnone => (by cases hnone)
  | creates _ hstep ih => exact .creates ih hstep
  | others _ hstep ih => exact .others ih hstep

/-- The matches of a window are the first ones of the log. -/
theorem matchesIn_window (rule : MonitorRule) (q : MonitorQueue) (first next : Nat) :
    rule.matchesIn (q.window rule.jobId first next) <+:
      rule.matchesIn ((q.log rule.jobId).drop (first - 1)) := by
  unfold MonitorQueue.window MonitorRule.matchesIn
  have hpre := List.take_prefix (next - first) ((q.log rule.jobId).drop (first - 1))
  obtain ⟨_, hrest⟩ := hpre
  conv_rhs => rw [← hrest, List.flatMap_append]
  exact List.prefix_append _ _

/-- **What a one-shot rule has done**: nothing, or its action on the first match. -/
theorem Kept.once (h : Kept rule old w stored) (haction : rule.action ≠ .recordProgress) :
    w.actedOn rule.ruleId = [] ∨ ∃ hit, w.actedOn rule.ruleId = [hit] ∧
      (rule.matchesIn ((w.queue.log rule.jobId).drop (rule.nextSeq - 1))).head? = some hit := by
  have hfirst : ∃ next, w.actedOn rule.ruleId <+:
      rule.due (w.queue.window rule.jobId rule.nextSeq next) := by
    rcases h.acted with ⟨-, hacted⟩ | ⟨handled, _, -, hdone, hacted⟩
    · refine ⟨stored.nextSeq, ?_⟩
      rw [hacted]
    · refine ⟨handled.nextSeq, ?_⟩
      rw [hacted, hdone.window]
      exact List.prefix_append _ _
  obtain ⟨next, hpre⟩ := hfirst
  have hmatch := matchesIn_window rule w.queue rule.nextSeq next
  unfold MonitorRule.due at hpre
  rw [if_neg haction] at hpre
  have hall := hpre.trans ((List.take_prefix 1 _).trans hmatch)
  have hlen : (w.actedOn rule.ruleId).length ≤ 1 :=
    hpre.length_le.trans (List.length_take_le _ _)
  rcases hacted : w.actedOn rule.ruleId with _ | ⟨hit, more⟩
  · exact .inl rfl
  · right
    rw [hacted] at hall hlen
    obtain rfl : more = [] := List.eq_nil_of_length_eq_zero (by simpa using hlen)
    obtain ⟨_, hrest⟩ := hall
    exact ⟨hit, rfl, by rw [← hrest]; rfl⟩

/-- One record for each action, since the creation of the rule. -/
theorem Kept.records (h : Kept rule [] w stored) (haction : rule.action = .recordProgress) :
    List.Forall₂ (Records rule) (w.actedOn rule.ruleId) (w.queue.recorded rule.ruleId) := by
  obtain ⟨_, hnew, hall⟩ := h.recorded haction
  rw [hnew]
  exact hall

/-- **Monitor actions happen exactly once** along orderly runs.  The record of a rule only moves on,
and stays once it is triggered; a one-shot rule acts at most once, on its first match, and is then
triggered and disabled; a `record_progress` rule has one record for each match it has acted on, in
order, and after as many undisturbed calls as the log had events, for each match in all of them; and
a call that runs alone returns, unless an enabled rule is not sound, has a log that cannot be read,
or submits under the key of another job. -/
theorem monitor_acts_exactly_once {w₀ : World} (hsound : rule.Sound) (hcreated : Created rule w₀)
    (hrun : OrderlyRun rule.ruleId w₀ w) :
    ∃ stored, w.queue.rules.filter (fun r => r.ruleId = rule.ruleId) = [stored] ∧
      MovesOn rule stored ∧
      (∀ w', OrderlyRun rule.ruleId w w' → ∃ stored',
        w'.queue.rules.filter (fun r => r.ruleId = rule.ruleId) = [stored'] ∧
          MovesOn stored stored') ∧
      (rule.action ≠ .recordProgress →
        (w.actedOn rule.ruleId = [] ∨ ∃ hit, w.actedOn rule.ruleId = [hit] ∧
          (rule.matchesIn ((w.queue.log rule.jobId).drop (rule.nextSeq - 1))).head? = some hit) ∧
        (w.actedOn rule.ruleId ≠ [] → atWork w.running rule.ruleId = [] →
          stored.triggeredAt.isSome ∧ stored.enabled = false)) ∧
      (rule.action = .recordProgress →
        List.Forall₂ (Records rule) (w.actedOn rule.ruleId) (w.queue.recorded rule.ruleId) ∧
        (rule.enabled = true → rule.triggeredAt = none → w.running = [] → ∀ n w', Calls n w w' →
          (w.queue.log rule.jobId).length ≤ n → ∃ next, (w.queue.log rule.jobId).length < next ∧
            List.Forall₂ (Records rule)
              (rule.matchesIn (w'.queue.window rule.jobId rule.nextSeq next))
              (w'.queue.recorded rule.ruleId))) ∧
      (w.running = [] → w.queue.rules.length ≤ maxMonitorRuleRecords →
        ∀ limit, 1 ≤ limit → limit ≤ maxPageRecords → (∃ w', Call limit w w') ∨
          ∃ w₁, Relation.ReflTransGen AloneStep (w.calling limit) w₁ ∧
            ∃ r ∈ w₁.queue.rules, r.enabled = true ∧
              (¬ r.Sound ∨ Unreadable w₁.queue r ∨ ∃ hit, Conflicts w₁.queue r hit)) := by
  obtain ⟨stored, hkept, hmoves⟩ := hcreated.kept.run hsound hrun
  have hdist := hrun.distinct hcreated.distinct
  refine ⟨stored, hkept.only, hmoves, fun w' hrun' => ?_, fun haction => ⟨hkept.once haction, ?_⟩,
    fun haction => ⟨hkept.records haction, ?_⟩, ?_⟩
  · obtain ⟨stored', hkept', hmoves'⟩ := hkept.run hsound hrun'
    exact ⟨stored', hkept'.only, hmoves'⟩
  · intro hacted hidle
    refine hkept.marked haction fun hnone => hacted ?_
    rcases hkept.acted with ⟨-, hdue⟩ | ⟨handled, done, hat, -⟩
    · rw [hdue, hnone]
    · rw [hidle] at hat
      cases hat
  · intro hen harmed hnone n w' hcalls _
    obtain ⟨stored', hkept', -, -, hnext⟩ :=
      (hcalls.attempts rule.ruleId).drain hkept hdist hen
    refine ⟨stored'.nextSeq, ?_, ?_⟩
    · have hpos := stored.nextSeq_pos
      have hreach := hnext ((hkept'.steady haction).trans harmed)
      omega
    · have hrecorded := hkept'.records haction
      rcases hkept'.acted with ⟨-, hdue⟩ | ⟨handled, done, hat, -⟩
      · rw [hdue] at hrecorded
        unfold MonitorRule.due at hrecorded
        rwa [if_pos haction] at hrecorded
      · rw [(hcalls.attempts rule.ruleId).running hnone] at hat
        cases hat
  · intro hnone hbd limit hpos hle
    have halone : Alone (w.calling limit) (Evaluator.start limit w.queue) :=
      ⟨rfl, hdist, fresh_start limit w.queue⟩
    let d : Draw := ⟨rule.ruleId, 0, false, false⟩
    obtain ⟨w₁, e₁, hsteps, halone₁, hlen, hend⟩ := halone.ends (d := d) rfl
    rcases hend with ⟨results, hret⟩ | ⟨_, hraise⟩
    · exact .inl ⟨_, hnone, hpos, hle, w₁, e₁, d, hsteps, halone₁.only, ⟨results, hret⟩, rfl⟩
    · exact .inr ⟨w₁, hsteps, halone₁.raises rfl (hlen.trans_le hbd) hraise⟩

/-! ### A process that stops -/

/-- The step of a running call, whatever it comes to. -/
def World.advance (w : World) (index : Nat) (d : Draw) : World :=
  match w.running[index]? with
  | none => w
  | some e =>
    match e.advance d w.queue with
    | .going q' e' act => ⟨q', w.running.set index e', w.acted ++ act.toList⟩
    | .returns _ | .raises _ => { w with running := w.running.eraseIdx index }

theorem step_advance {index : Nat} (d : Draw) (h : (w.running[index]?).isSome) :
    Step w (.advances index d) (w.advance index d) := by
  obtain ⟨e, he⟩ := Option.isSome_iff_exists.1 h
  unfold World.advance
  simp only [he]
  cases hadv : e.advance d w.queue with
  | going => exact .goes he hadv
  | returns => exact .returns he hadv
  | raises => exact .raises he hadv

/-- The only call goes on. -/
def World.goesOn (w : World) (d : Draw) : Bool :=
  match w.running with
  | [e] =>
    match e.advance d w.queue with
    | .going .. => true
    | _ => false
  | _ => false

/-- The only call ends: it returns, or it raises when it takes up the last rule. -/
def World.ends (w : World) (d : Draw) (failed : Option MonitorRule) : Bool :=
  match w.running with
  | [e] =>
    match e.advance d w.queue, failed with
    | .returns _, none => true
    | .raises _, some failing =>
      match e.stage with
      | .between [last] => last = failing
      | _ => false
    | _, _ => false
  | _ => false

/-- The world after some steps of a call that begins alone. -/
def World.during (w : World) (limit : Nat) (d : Draw) (steps : Nat) : World :=
  (fun w => w.advance 0 d)^[steps] (w.calling limit)

theorem aloneStep_advance {d : Draw} (href : d.refused = false) (h : w.goesOn d = true) :
    AloneStep w (w.advance 0 d) := by
  unfold World.goesOn at h
  split at h
  · rename_i e he
    split at h
    · rename_i q' e' act hadv
      refine ⟨e, d, q', e', act, href, he, hadv, ?_⟩
      unfold World.advance
      rw [he]
      dsimp only [List.getElem?_cons_zero]
      rw [hadv]
      rfl
    · cases h
  · cases h

/-- **A call that goes on for some steps and then ends** is a whole one. -/
theorem attempt_of_ends {limit steps : Nat} {d : Draw} {failed : Option MonitorRule}
    (hnone : w.running = []) (hlim : 1 ≤ limit ∧ limit ≤ maxPageRecords) (href : d.refused = false)
    (hgoes : ∀ k < steps, (w.during limit d k).goesOn d = true)
    (hends : (w.during limit d steps).ends d failed = true) :
    Attempt limit w { w.during limit d steps with running := [] } failed := by
  have hsteps : Relation.ReflTransGen AloneStep (w.calling limit) (w.during limit d steps) := by
    clear hends
    induction steps with
    | zero => exact .refl
    | succ steps ih =>
      have hstep := aloneStep_advance href (hgoes steps (Nat.lt_succ_self steps))
      unfold World.during at hstep ⊢
      rw [Function.iterate_succ_apply']
      exact (ih fun k hk => hgoes k (Nat.lt_succ_of_lt hk)).tail hstep
  unfold World.ends at hends
  split at hends
  · rename_i e he
    refine ⟨hnone, hlim.1, hlim.2, _, e, d, hsteps, he, ?_, rfl⟩
    split at hends
    · rename_i results hret
      exact ⟨results, hret⟩
    · rename_i error failing hraise
      split at hends
      · rename_i last hstg
        exact ⟨.inl (by rw [hstg, of_decide_eq_true hends]), error, hraise⟩
      · cases hends
    · cases hends
  · cases hends

end

/-- How often a literal pattern occurs in a text, from left to right. -/
def occurrences (pattern : List Char) : Nat → List Char → Nat
  | 0, _ => 0
  | _, [] => 0
  | steps + 1, c :: text =>
    if pattern.isPrefixOf (c :: text) then
      occurrences pattern steps ((c :: text).drop pattern.length) + 1
    else occurrences pattern steps text

/-- Python's `re` and its readings of texts, for patterns that are letters or an open bracket and
for texts without blanks at their ends. -/
@[reducible]
def sampleText : Text where
  compiles pattern := pattern ≠ "("
  finditer pattern text :=
    List.replicate (occurrences pattern.toList text.toList.length text.toList) ⟨pattern, [], []⟩
  strip text := text
  isdigit text := !text.isEmpty && text.toList.all Char.isDigit
  int text := text.toNat?
  float value := match value with
    | .num .. => some value
    | .str text => text.toInt?.map fun n => .num n ""
    | _ => none
  positive value := match value with
    | .num n _ => decide (0 < n)
    | _ => false

/-- An `emit_event` rule. -/
def sampleRule : MonitorRule where
  ruleId := ⟨"rule_1", by decide⟩
  jobId := sampleJob.jobId
  pattern := "done"
  action := .emitEvent
  eventTypes := []
  nextSeq := 1
  nextSeq_pos := le_rfl
  enabled := true
  triggeredAt := none
  actionPayload := []

/-- A job has written a line that the rule matches. -/
def sampleWorld : World where
  queue := ⟨[sampleRule], [⟨sampleJob.jobId, 1, "stdout.delta", "done", 0, []⟩], [], []⟩
  running := []
  acted := []

theorem created_sample : Created sampleRule sampleWorld :=
  ⟨List.nodup_singleton _, rfl, rfl, rfl, rfl⟩

theorem sound_sample : @MonitorRule.Sound sampleText sampleRule :=
  let := sampleText
  ⟨rfl, fun _ _ _ _ _ => ⟨.emit, rfl⟩⟩

/-- The time and the id that the sample calls draw. -/
def sampleDraw : Draw := ⟨sampleRule.ruleId, 0, false, false⟩

/-- A call scans the only rule, takes it up, acts on its match, and stops. -/
def World.stopped (w : World) : World :=
  let := sampleText
  let w₄ := ((((w.calling 100).advance 0 sampleDraw).advance 0 sampleDraw).advance 0
    sampleDraw).advance 0 sampleDraw
  { w₄ with running := w₄.running.eraseIdx 0 }

/-- Any number of steps. -/
abbrev Runs [Text] : World → World → Prop :=
  Relation.ReflTransGen fun w w' => ∃ move, Step w move w'

/-- The states of a sample call that is stopped after four steps are a run of the world. -/
theorem runs_stopped {w : World} (hnone : w.running = []) (hgoes : let := sampleText
      let w₁ := (w.calling 100).advance 0 sampleDraw
      let w₂ := w₁.advance 0 sampleDraw
      let w₃ := w₂.advance 0 sampleDraw
      let w₄ := w₃.advance 0 sampleDraw
      (w₁.running[0]?).isSome ∧ (w₂.running[0]?).isSome ∧ (w₃.running[0]?).isSome ∧
        (w₄.running[0]?).isSome) : @Runs sampleText w w.stopped := by
  let := sampleText
  obtain ⟨h₁, h₂, h₃, h₄⟩ := hgoes
  have hbegins : Step w (.begins 100) (w.calling 100) := by
    have hstep : Step w (.begins 100) _ := .begins ⟨by decide, by decide⟩
    rwa [hnone, List.nil_append] at hstep
  obtain ⟨e, he⟩ := Option.isSome_iff_exists.1 h₄
  have h₀ : ((w.calling 100).running[0]?).isSome := rfl
  refine .head ⟨_, hbegins⟩ (.head ⟨_, step_advance sampleDraw h₀⟩ ?_)
  refine .head ⟨_, step_advance sampleDraw h₁⟩ (.head ⟨_, step_advance sampleDraw h₂⟩ ?_)
  exact .head ⟨_, step_advance sampleDraw h₃⟩ (.single ⟨_, .stops he⟩)

/-- **A stop between an action and the write-back makes a rule act twice.**  The rule is sound and
has just been created; two calls in turn act on its match and stop before they write it back. -/
theorem stopped_monitor_acts_twice :
    @MonitorRule.Sound sampleText sampleRule ∧ Created sampleRule sampleWorld ∧
      ∃ w, @Runs sampleText sampleWorld w ∧ 1 < (w.actedOn sampleRule.ruleId).length ∧
        ((w.queue.log sampleRule.jobId).filter fun e => e.eventType = "monitor.triggered").length =
          2 := by
  refine ⟨sound_sample, created_sample, sampleWorld.stopped.stopped, ?_, ?_, ?_⟩
  · have hfirst := runs_stopped (w := sampleWorld) rfl (by decide +kernel)
    have hsecond := runs_stopped (w := sampleWorld.stopped) (by decide +kernel) (by decide +kernel)
    exact hfirst.trans hsecond
  · decide +kernel
  · decide +kernel

/-- The world after a whole call. -/
def World.called (w : World) (steps : Nat) : World :=
  let := sampleText
  { w.during 100 sampleDraw steps with running := [] }

/-- A whole call finds the match, acts on it, and marks the rule as triggered. -/
theorem monitor_acts_exactly_once_called :
    ∃ stored hit, (sampleWorld.called 5).queue.rules.filter
        (fun r => r.ruleId = sampleRule.ruleId) = [stored] ∧
      MovesOn sampleRule stored ∧ stored.triggeredAt.isSome ∧ stored.enabled = false ∧
      (sampleWorld.called 5).actedOn sampleRule.ruleId = [hit] ∧
      (@MonitorRule.matchesIn sampleText sampleRule
        (((sampleWorld.called 5).queue.log sampleJob.jobId).drop 0)).head? = some hit := by
  let := sampleText
  have hcall : Call 100 sampleWorld (sampleWorld.called 5) :=
    attempt_of_ends rfl ⟨by decide, by decide⟩ rfl (by decide +kernel) (by decide +kernel)
  obtain ⟨stored, honly, hmoves, -, honce, -⟩ :=
    monitor_acts_exactly_once sound_sample created_sample
      (hcall.orderly created_sample.kept created_sample.distinct)
  obtain ⟨hfirst, hmarked⟩ := honce (by decide)
  have hacted : (sampleWorld.called 5).actedOn sampleRule.ruleId ≠ [] := by decide +kernel
  obtain ⟨htriggered, hdisabled⟩ := hmarked hacted rfl
  obtain ⟨hit, hhit, hhead⟩ := hfirst.resolve_left hacted
  exact ⟨stored, hit, honly, hmoves, htriggered, hdisabled, hhit, hhead⟩

end Monitor
end ClioQueue
