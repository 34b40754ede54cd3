/-
# From one native observation to the next

`_validate_native_runtime_transition` compares the documents the worker holds with the ones it is
offered.  `NativeDocuments.Advances` says which pairs it accepts.  Every rule of it is
transitive but one: the table of reachable states leads from `scripted` and `running` through
`unknown` to `submitted`, which it does not lead to at once.  So a history that is accepted
step by step is accepted in every sample of it exactly when `submitted` is never seen after
`scripted` or `running` (`native_samples_accepted_iff`).
-/

import ClioQueue.Durable.Sampling
import ClioQueue.Jarvis.DocumentAgreement

namespace ClioQueue.Jarvis

open Durable Wire

variable {φ : Type}

/-- `RuntimeMetadataIdentityConflictError`, and a time that cannot be read. -/
inductive TransitionError where
  | conflict (message : String)
  | timestamp
deriving DecidableEq, Repr

/-- Refuse a transition unless a condition holds. -/
def permit (condition : Bool) (message : String) : Except TransitionError Unit :=
  if condition then .ok () else .error (.conflict message)

/-- What was assigned stays. -/
def keepsAssigned {α : Type} [DecidableEq α] (old new : Option α) : Bool := old = none || new = old

/-- The rules on the handles. -/
def validateHandleTransition (old new : ExecutionHandle) : Except TransitionError Unit := do
  permit (old.executionId = new.executionId) "native JARVIS execution changed execution_id"
  permit (old.pipelineId = new.pipelineId) "native JARVIS execution changed pipeline_id"
  permit (old.mode = new.mode) "native JARVIS execution changed mode"
  permit (keepsAssigned old.schedulerProvider new.schedulerProvider)
    "native JARVIS execution changed assigned scheduler_provider"
  permit (keepsAssigned old.schedulerNativeId new.schedulerNativeId)
    "native JARVIS execution changed assigned scheduler_native_id"
  permit (keepsAssigned old.cluster new.cluster)
    "native JARVIS execution changed assigned cluster"

/-- A scheduler has activated a scripted execution. -/
def hasSchedulerIdentity (handle : ExecutionHandle) (record : ExecutionRecord φ) : Bool :=
  handle.mode = .scheduler && handle.schedulerNativeId.isSome && record.submitted

/-- The update times do not go back. -/
def validateUpdateTimes [IsoFormat] (old new : ExecutionRecord φ) : Except TransitionError Unit :=
  match instantOf old.updatedAt, instantOf new.updatedAt with
  | some oldUpdated, some newUpdated =>
    permit (oldUpdated ≤ newUpdated) "native JARVIS execution update timestamp regressed"
  | _, _ => .error .timestamp

/-- The rules on the states: the new one is reachable, and a scripted execution is activated by
its scheduler. -/
def validateStateTransition (newHandle : ExecutionHandle) (old new : ExecutionRecord φ) :
    Except TransitionError Unit :=
  if old.state ≠ new.state then do
    permit (new.state ∈ reachableStates old.state) "native JARVIS execution lifecycle regressed"
    permit (old.state ≠ .scripted || new.state = .failed || hasSchedulerIdentity newHandle new)
      "native JARVIS scripted activation lacked scheduler identity"
  else
    permit (old.terminal = new.terminal)
      "native JARVIS terminal flag changed without a lifecycle transition"

/-- The rules on the records. -/
def validateRecordTransition [IsoFormat] (newHandle : ExecutionHandle) (old new : ExecutionRecord φ) :
    Except TransitionError Unit := do
  permit (old.createdAt = new.createdAt) "native JARVIS execution changed its creation timestamp"
  validateUpdateTimes old new
  permit (!old.submitted || new.submitted) "native JARVIS execution submission flag regressed"
  validateStateTransition newHandle old new
  permit (keepsAssigned old.returnCode new.returnCode)
    "native JARVIS execution return code changed"
  permit (keepsAssigned old.error new.error) "native JARVIS execution error changed"

section Progress

/-- A field that may be `None`. -/
def dumpOptional {α : Type} (dump : α → Value (Number φ)) : Option α → Value (Number φ)
  | none => .null
  | some a => dump a

/-- `event.model_dump(mode="json")`. -/
def ProgressEvent.dump (event : ProgressEvent φ) : Value (Number φ) :=
  .dict [("schema_version", .str eventSchema), ("package_name", .str event.packageName),
      ("package_id", .str event.packageId), ("execution_id", .str event.executionId),
      ("label", .str event.label), ("state", .str event.state.text),
      ("current", dumpOptional .num event.current), ("total", dumpOptional .num event.total),
      ("unit", dumpOptional .str event.unit), ("message", dumpOptional .str event.message),
      ("sequence", .num (.int event.sequence)), ("observed_at_epoch", .num event.observedAtEpoch),
      ("determinate", .bool event.determinate), ("metadata", .dict event.metadata)]

variable [PyFloat φ] {b c newHandle : ExecutionHandle} {progress : ExecutionProgress φ}
  {new old : ExecutionRecord φ} {a : NativeDocuments φ} {package : PackageProgress φ}
  {same : ProgressEvent φ → ProgressEvent φ → Prop} {u : Unit}

/-- The dumps of two events are equal. -/
def sameEvent (old new : ProgressEvent φ) : Bool := new.dump.plain = old.dump.plain

/-- The rules on the latest event of a package. -/
def validateEventTransition (old new : PackageProgress φ) : Except TransitionError Unit :=
  match old.latest, new.latest with
  | none, _ => .ok ()
  | some _, none => .error (.conflict "native JARVIS progress event sequence regressed")
  | some oldEvent, some newEvent => do
    permit (oldEvent.sequence ≤ newEvent.sequence)
      "native JARVIS progress event sequence regressed"
    if newEvent.sequence = oldEvent.sequence then
      permit (new.eventCount = old.eventCount && sameEvent oldEvent newEvent)
        "native JARVIS progress rewrote an existing event"
    else
      permit (new.eventCount ≠ old.eventCount)
        "native JARVIS progress changed an event without increasing its count"

/-- The package of an identity. -/
def packageOf (progress : ExecutionProgress φ) (packageId : String) : Option (PackageProgress φ) :=
  progress.packages.find? fun package => package.packageId = packageId

/-- The rules on one package. -/
def validatePackageTransition (incoming : ExecutionProgress φ) (old : PackageProgress φ) :
    Except TransitionError Unit :=
  match packageOf incoming old.packageId with
  | none => .error (.conflict "native JARVIS progress dropped a package identity")
  | some new => do
    permit (new.packageName = old.packageName) "native JARVIS progress changed a package name"
    permit (old.eventCount ≤ new.eventCount) "native JARVIS progress event count regressed"
    validateEventTransition old new

/-- `_validate_native_progress_transition`. -/
def validateNativeProgressTransition (current incoming : ExecutionProgress φ) :
    Except TransitionError Unit :=
  current.packages.forM fun package => validatePackageTransition incoming package

/-- `_validate_native_runtime_transition`, on the documents of the two observations. -/
def validateNativeTransition [IsoFormat] (current incoming : NativeDocuments φ) :
    Except TransitionError Unit := do
  validateHandleTransition current.executionHandle incoming.executionHandle
  validateRecordTransition incoming.executionHandle current.executionRecord incoming.executionRecord
  validateNativeProgressTransition current.progress incoming.progress

/-! ### What is accepted -/

@[simp]
theorem permit_eq_ok {condition : Bool} {message : String} :
    permit condition message = .ok u ↔ condition = true := by
  cases condition <;> simp [permit]

@[simp]
theorem keepsAssigned_iff {α : Type} [DecidableEq α] {old new : Option α} :
    keepsAssigned old new = true ↔ ∀ a, old = some a → new = some a := by
  cases old <;> simp [keepsAssigned]

/-- The handle of a later observation. -/
structure HandleAdvances (old new : ExecutionHandle) : Prop where
  executionId : old.executionId = new.executionId
  pipelineId : old.pipelineId = new.pipelineId
  mode : old.mode = new.mode
  provider : ∀ text, old.schedulerProvider = some text → new.schedulerProvider = some text
  nativeId : ∀ text, old.schedulerNativeId = some text → new.schedulerNativeId = some text
  cluster : ∀ text, old.cluster = some text → new.cluster = some text

/-- The record of a later observation, under a table of the states that follow each state. -/
structure RecordAdvances [IsoFormat] (table : ExecutionState → List ExecutionState)
    (newHandle : ExecutionHandle) (old new : ExecutionRecord φ) : Prop where
  createdAt : old.createdAt = new.createdAt
  updatedAt : ∃ o, instantOf old.updatedAt = some o ∧
    ∃ n, instantOf new.updatedAt = some n ∧ o ≤ n
  submitted : old.submitted = true → new.submitted = true
  reached : old.state ≠ new.state → new.state ∈ table old.state
  activated : old.state = .scripted → new.state ≠ .scripted → new.state ≠ .failed →
    hasSchedulerIdentity newHandle new = true
  kept : old.state = new.state → old.terminal = new.terminal
  returnCode : ∀ n, old.returnCode = some n → new.returnCode = some n
  error : ∀ text, old.error = some text → new.error = some text

/-- A later observation of a package, with a rule for two sights of one event. -/
structure PackageAdvances (same : ProgressEvent φ → ProgressEvent φ → Prop)
    (old new : PackageProgress φ) : Prop where
  name : new.packageName = old.packageName
  count : old.eventCount ≤ new.eventCount
  event : ∀ e ∈ old.latest, ∃ e' ∈ new.latest, e.sequence ≤ e'.sequence ∧
    (e'.sequence = e.sequence → new.eventCount = old.eventCount ∧ same e e') ∧
    (e'.sequence ≠ e.sequence → new.eventCount ≠ old.eventCount)

/-- A later snapshot: no package is dropped, and each one advances. -/
def ProgressAdvances (same : ProgressEvent φ → ProgressEvent φ → Prop)
    (old new : ExecutionProgress φ) : Prop :=
  ∀ package ∈ old.packages, ∃ package', packageOf new package.packageId = some package' ∧
    PackageAdvances same package package'

/-- Later documents of one execution. -/
structure NativeDocuments.Advances [IsoFormat] (table : ExecutionState → List ExecutionState)
    (old new : NativeDocuments φ) : Prop where
  handle : HandleAdvances old.executionHandle new.executionHandle
  record : RecordAdvances table new.executionHandle old.executionRecord new.executionRecord
  progress : ProgressAdvances (fun e e' => sameEvent e e' = true) old.progress new.progress

theorem validateHandleTransition_eq_ok {old new : ExecutionHandle} :
    validateHandleTransition old new = .ok u ↔ HandleAdvances old new := by
  simp only [validateHandleTransition, bind_eq_ok, permit_eq_ok, keepsAssigned_iff,
    decide_eq_true_eq, exists_const]
  constructor
  all_goals
    rintro ⟨h₁, h₂, h₃, h₄, h₅, h₆⟩
    exact ⟨h₁, h₂, h₃, h₄, h₅, h₆⟩

section

omit [PyFloat φ]

theorem validateUpdateTimes_eq_ok [IsoFormat] :
    validateUpdateTimes old new = .ok u ↔ ∃ o, instantOf old.updatedAt = some o ∧
      ∃ n, instantOf new.updatedAt = some n ∧ o ≤ n := by
  unfold validateUpdateTimes
  cases instantOf old.updatedAt <;> cases instantOf new.updatedAt <;> simp

/-- A change of state is accepted exactly if the new state is reachable, an execution that leaves
the scripted state without failing shows its scheduler, and an unchanged state stays as terminal as
it was. -/
theorem validateStateTransition_eq_ok :
    validateStateTransition newHandle old new = .ok u ↔
      (old.state ≠ new.state → new.state ∈ reachableStates old.state) ∧
        (old.state = .scripted → new.state ≠ .scripted → new.state ≠ .failed →
          hasSchedulerIdentity newHandle new = true) ∧
        (old.state = new.state → old.terminal = new.terminal) := by
  unfold validateStateTransition
  split_ifs with hst
  · simp only [bind_eq_ok, permit_eq_ok, decide_eq_true_eq, exists_const, Bool.or_eq_true]
    constructor
    · rintro ⟨hreached, hactivated⟩
      refine ⟨fun _ => hreached, fun hold _ hfail => ?_, fun heq => absurd heq hst⟩
      exact hactivated.resolve_left (not_or.2 ⟨not_not.2 hold, hfail⟩)
    · rintro ⟨hreached, hactivated, -⟩
      refine ⟨hreached hst, or_iff_not_imp_left.2 fun h => ?_⟩
      obtain ⟨hold, hfail⟩ := not_or.1 h
      exact hactivated (not_not.1 hold) (fun hnew => hst ((not_not.1 hold).trans hnew.symm)) hfail
  · rw [permit_eq_ok, decide_eq_true_eq]
    have heq := not_not.1 hst
    constructor
    · intro hterm
      exact ⟨fun h => absurd heq h, fun hold hnew => absurd (heq.symm.trans hold) hnew,
        fun _ => hterm⟩
    · rintro ⟨-, -, hkept⟩
      exact hkept heq

/-- A later execution record is accepted exactly if it follows the earlier one over reachable
states. -/
theorem validateRecordTransition_eq_ok [IsoFormat] :
    validateRecordTransition newHandle old new = .ok u ↔
      RecordAdvances reachableStates newHandle old new := by
  have hsub : (!old.submitted) = true ∨ new.submitted = true ↔
      (old.submitted = true → new.submitted = true) := by
    cases old.submitted <;> simp
  simp only [validateRecordTransition, bind_eq_ok, permit_eq_ok, keepsAssigned_iff,
    validateUpdateTimes_eq_ok, validateStateTransition_eq_ok, decide_eq_true_eq, exists_const,
    Bool.or_eq_true, hsub]
  constructor
  · rintro ⟨h₁, h₂, h₃, ⟨h₄, h₅, h₆⟩, h₇, h₈⟩
    exact ⟨h₁, h₂, h₃, h₄, h₅, h₆, h₇, h₈⟩
  · rintro ⟨h₁, h₂, h₃, h₄, h₅, h₆, h₇, h₈⟩
    exact ⟨h₁, h₂, h₃, ⟨h₄, h₅, h₆⟩, h₇, h₈⟩

end

/-- The latest event of a package is never lost: it stays the same one, or a later one comes with
another count. -/
theorem validateEventTransition_eq_ok {old new : PackageProgress φ} :
    validateEventTransition old new = .ok u ↔
      ∀ e ∈ old.latest, ∃ e' ∈ new.latest, e.sequence ≤ e'.sequence ∧
        (e'.sequence = e.sequence → new.eventCount = old.eventCount ∧ sameEvent e e' = true) ∧
        (e'.sequence ≠ e.sequence → new.eventCount ≠ old.eventCount) := by
  unfold validateEventTransition
  rcases old.latest with _ | e
  · simp
  · rcases new.latest with _ | e'
    · simp
    · simp only [bind_eq_ok, permit_eq_ok, decide_eq_true_eq, exists_const]
      split_ifs with hseq
      · simp [hseq]
      · simp [hseq]

/-- A package is accepted exactly if the incoming progress has it and it follows what it was. -/
theorem validatePackageTransition_eq_ok {incoming : ExecutionProgress φ} {old : PackageProgress φ} :
    validatePackageTransition incoming old = .ok u ↔
      ∃ new, packageOf incoming old.packageId = some new ∧
        PackageAdvances (fun e e' => sameEvent e e' = true) old new := by
  unfold validatePackageTransition
  rcases packageOf incoming old.packageId with _ | new
  · simp
  · simp only [bind_eq_ok, permit_eq_ok, decide_eq_true_eq, exists_const,
      validateEventTransition_eq_ok, Option.some.injEq, exists_eq_left']
    constructor
    all_goals
      rintro ⟨hname, hcnt, hev⟩
      exact ⟨hname, hcnt, hev⟩

/-- **What `_validate_native_runtime_transition` accepts.** -/
theorem validateNativeTransition_eq_ok [IsoFormat] {current incoming : NativeDocuments φ} :
    validateNativeTransition current incoming = .ok u ↔
      current.Advances reachableStates incoming := by
  simp only [validateNativeTransition, validateNativeProgressTransition, bind_eq_ok,
    validateHandleTransition_eq_ok, validateRecordTransition_eq_ok, forM_eq_ok,
    validatePackageTransition_eq_ok, exists_const]
  constructor
  all_goals
    rintro ⟨hhandle, hrec, hprog⟩
    exact ⟨hhandle, hrec, hprog⟩

/-! ### Which rules are transitive -/

/-- The states that follow each state in some number of steps. -/
def eventualStates : ExecutionState → List ExecutionState
  | .scripted => .submitted :: reachableStates .scripted
  | .running => .submitted :: reachableStates .running
  | state => reachableStates state

/-- A state that is reached again after a later one, by way of `unknown`. -/
def Relapse (old new : ExecutionState) : Prop :=
  (old = .scripted ∨ old = .running) ∧ new = .submitted

instance (old new : ExecutionState) : Decidable (Relapse old new) :=
  inferInstanceAs (Decidable (_ ∧ _))

theorem mem_executionStates (state : ExecutionState) : state ∈ executionStates := by
  cases state <;> decide

theorem mem_reachableStates_iff (old new : ExecutionState) :
    new ∈ reachableStates old ↔ new ∈ eventualStates old ∧ ¬ Relapse old new := by
  have h : ∀ old ∈ executionStates, ∀ new ∈ executionStates,
      (new ∈ reachableStates old ↔ new ∈ eventualStates old ∧ ¬ Relapse old new) := by decide
  exact h old (mem_executionStates old) new (mem_executionStates new)

theorem eventualStates_trans (a b c : ExecutionState) (hab : a ≠ b → b ∈ eventualStates a)
    (hbc : b ≠ c → c ∈ eventualStates b) (hac : a ≠ c) : c ∈ eventualStates a := by
  have h : ∀ a ∈ executionStates, ∀ b ∈ executionStates, ∀ c ∈ executionStates,
      (a ≠ b → b ∈ eventualStates a) → (b ≠ c → c ∈ eventualStates b) → a ≠ c →
        c ∈ eventualStates a := by decide
  exact h a (mem_executionStates a) b (mem_executionStates b) c (mem_executionStates c) hab hbc hac

/-- A state that is left and come back to is not terminal. -/
theorem not_terminal_of_cycle (a b : ExecutionState) (hab : a ≠ b) (h : b ∈ eventualStates a)
    (h' : a ∈ eventualStates b) : a ∉ terminalStates := by
  have hall : ∀ a ∈ executionStates, ∀ b ∈ executionStates, a ≠ b → b ∈ eventualStates a →
      a ∈ eventualStates b → a ∉ terminalStates := by decide
  exact hall a (mem_executionStates a) b (mem_executionStates b) hab h h'

/-- A change of state is in the table of the code when it is in the table of all later states and
is no relapse. -/
theorem reached_iff {old new : ExecutionState} :
    (old ≠ new → new ∈ reachableStates old) ↔
      (old ≠ new → new ∈ eventualStates old) ∧ ¬ Relapse old new := by
  by_cases hst : old = new
  · subst hst
    have hnot : ¬ Relapse old old := by
      rintro ⟨hold | hold, hnew⟩
      all_goals exact absurd (hold.symm.trans hnew) (by decide)
    simp [hnot]
  · simp only [ne_eq, hst, not_false_eq_true, true_implies, mem_reachableStates_iff]

/-- A terminal flag that no step changes in place is not changed by two steps. -/
theorem kept_trans {a b c : ExecutionState} {ta tb tc : Bool} (ha : Lifecycle a ta)
    (hc : Lifecycle c tc) (hab : a = b → ta = tb) (hbc : b = c → tb = tc)
    (hab' : a ≠ b → b ∈ eventualStates a) (hbc' : b ≠ c → c ∈ eventualStates b) (heq : a = c) :
    ta = tc := by
  by_cases hst : a = b
  · exact (hab hst).trans (hbc (hst.symm.trans heq))
  · -- the state was left and reached again, so neither is terminal
    have hback := hbc' fun h => hst (heq.trans h.symm)
    rw [← heq] at hback
    have hnot := not_terminal_of_cycle _ _ hst (hab' hst) hback
    have hafalse : ta = false := Bool.eq_false_iff.2 fun h => hnot (ha.1 h)
    have hcfalse : tc = false := Bool.eq_false_iff.2 fun h => hnot (heq ▸ hc.1 h)
    rw [hafalse, hcfalse]

theorem HandleAdvances.trans {a : ExecutionHandle} (hab : HandleAdvances a b)
    (hbc : HandleAdvances b c) : HandleAdvances a c where
  executionId := hab.executionId.trans hbc.executionId
  pipelineId := hab.pipelineId.trans hbc.pipelineId
  mode := hab.mode.trans hbc.mode
  provider text h := hbc.provider text (hab.provider text h)
  nativeId text h := hbc.nativeId text (hab.nativeId text h)
  cluster text h := hbc.cluster text (hab.cluster text h)

section

omit [PyFloat φ]

theorem hasSchedulerIdentity_mono (h : HandleAdvances b c)
    (hsub : old.submitted = true → new.submitted = true)
    (hident : hasSchedulerIdentity b old = true) : hasSchedulerIdentity c new = true := by
  simp only [hasSchedulerIdentity, Bool.and_eq_true, decide_eq_true_eq] at hident ⊢
  obtain ⟨⟨hmode, hnid⟩, hold⟩ := hident
  obtain ⟨text, htext⟩ := Option.isSome_iff_exists.1 hnid
  exact ⟨⟨h.mode ▸ hmode, Option.isSome_iff_exists.2 ⟨text, h.nativeId text htext⟩⟩, hsub hold⟩

/-- Records that follow each other over eventual states compose: what a later record keeps of the
second it keeps of the first. -/
theorem RecordAdvances.trans [IsoFormat] {hb hc : ExecutionHandle} {a b c : ExecutionRecord φ}
    (ha : Lifecycle a.state a.terminal) (hc' : Lifecycle c.state c.terminal)
    (hhandle : HandleAdvances hb hc) (hab : RecordAdvances eventualStates hb a b)
    (hbc : RecordAdvances eventualStates hc b c) : RecordAdvances eventualStates hc a c where
  createdAt := hab.createdAt.trans hbc.createdAt
  updatedAt := by
    obtain ⟨o, ho, n, hn, hon⟩ := hab.updatedAt
    obtain ⟨_, hn', m, hm, hnm⟩ := hbc.updatedAt
    rw [hn] at hn'
    cases hn'
    exact ⟨o, ho, m, hm, hon.trans hnm⟩
  submitted h := hbc.submitted (hab.submitted h)
  reached := eventualStates_trans a.state b.state c.state hab.reached hbc.reached
  activated := by
    intro hscripted hnew hfail
    by_cases hb' : b.state = .scripted
    · exact hbc.activated hb' hnew hfail
    · by_cases hbfailed : b.state = .failed
      · -- nothing follows a failure
        have hreach := hbc.reached (hbfailed ▸ hfail.symm)
        rw [hbfailed] at hreach
        cases hreach
      · exact hasSchedulerIdentity_mono hhandle hbc.submitted (hab.activated hscripted hb' hbfailed)
  kept := kept_trans ha hc' hab.kept hbc.kept hab.reached hbc.reached
  returnCode n h := hbc.returnCode n (hab.returnCode n h)
  error text h := hbc.error text (hab.error text h)

/-- Packages that follow each other compose, as long as equal events do. -/
theorem PackageAdvances.trans (hsame : ∀ e e' e'', same e e' → same e' e'' → same e e'')
    {a b c : PackageProgress φ} (hab : PackageAdvances same a b) (hbc : PackageAdvances same b c) :
    PackageAdvances same a c where
  name := hbc.name.trans hab.name
  count := hab.count.trans hbc.count
  event := by
    intro e he
    obtain ⟨e', he', hle, heq, hne⟩ := hab.event e he
    obtain ⟨e'', he'', hle', heq', hne'⟩ := hbc.event e' he'
    have hcnt := hab.count
    have hcnt' := hbc.count
    refine ⟨e'', he'', hle.trans hle', ?_, ?_⟩
    · intro hseq
      obtain ⟨hcnt, hdump⟩ := heq (by omega)
      obtain ⟨hcnt', hdump'⟩ := heq' (by omega)
      exact ⟨hcnt'.trans hcnt, hsame e e' e'' hdump hdump'⟩
    · intro hseq hcounts
      by_cases hfirst : e'.sequence = e.sequence
      · exact hne' (by omega) (hcounts.trans (heq hfirst).1.symm)
      · exact hne hfirst (by omega)

theorem packageOf_eq_some {packageId : String} (h : packageOf progress packageId = some package) :
    package ∈ progress.packages ∧ package.packageId = packageId := by
  refine ⟨List.mem_of_find?_eq_some h, ?_⟩
  have hfound := List.find?_some
    (p := fun package : PackageProgress φ => decide (package.packageId = packageId)) h
  exact of_decide_eq_true hfound

theorem packageOf_of_mem (hnd : (packageIds progress.packages).Nodup)
    (h : package ∈ progress.packages) : packageOf progress package.packageId = some package := by
  have hsome : (packageOf progress package.packageId).isSome = true :=
    List.find?_isSome.2 ⟨package, h, decide_eq_true rfl⟩
  obtain ⟨_, hfound⟩ := Option.isSome_iff_exists.1 hsome
  obtain ⟨hmem, hid⟩ := packageOf_eq_some hfound
  rw [hfound, List.inj_on_of_nodup_map hnd hmem h hid]

theorem ProgressAdvances.trans (hsame : ∀ e e' e'', same e e' → same e' e'' → same e e'')
    {a b c : ExecutionProgress φ} (hab : ProgressAdvances same a b)
    (hbc : ProgressAdvances same b c) : ProgressAdvances same a c := by
  intro package hpkg
  obtain ⟨package', hfind, hadv⟩ := hab package hpkg
  obtain ⟨hmem, hid⟩ := packageOf_eq_some hfind
  obtain ⟨package'', hfind', hadv'⟩ := hbc package' hmem
  exact ⟨package'', hid ▸ hfind', hadv.trans hsame hadv'⟩

end

theorem sameEvent_trans (e e' e'' : ProgressEvent φ) (h : sameEvent e e' = true)
    (h' : sameEvent e' e'' = true) : sameEvent e e'' = true := by
  simp only [sameEvent, decide_eq_true_eq] at h h' ⊢
  exact h'.trans h

/-- **Later documents of later documents**, under the table of all later states. -/
theorem NativeDocuments.Advances.trans [IsoFormat] {b c : NativeDocuments φ}
    (ha : Lifecycle a.executionRecord.state a.executionRecord.terminal)
    (hc : Lifecycle c.executionRecord.state c.executionRecord.terminal)
    (hab : a.Advances eventualStates b) (hbc : b.Advances eventualStates c) :
    a.Advances eventualStates c where
  handle := hab.handle.trans hbc.handle
  record := hab.record.trans ha hc hbc.handle hbc.record
  progress := hab.progress.trans sameEvent_trans hbc.progress

/-- The table of the code is the table of all later states without the relapses. -/
theorem NativeDocuments.advances_iff [IsoFormat] {b : NativeDocuments φ} :
    a.Advances reachableStates b ↔
      a.Advances eventualStates b ∧ ¬ Relapse a.executionRecord.state b.executionRecord.state := by
  constructor
  · rintro ⟨hhandle, hrec, hprog⟩
    obtain ⟨hreached, hrelapse⟩ := reached_iff.1 hrec.reached
    exact ⟨⟨hhandle, { hrec with reached := hreached }, hprog⟩, hrelapse⟩
  · rintro ⟨⟨hhandle, hrec, hprog⟩, hrelapse⟩
    have hreached := reached_iff.2 ⟨hrec.reached, hrelapse⟩
    exact ⟨hhandle, { hrec with reached := hreached }, hprog⟩

theorem NativeDocuments.Advances.refl [IsoFormat]
    {agrees : Fields (Number φ) → ExecutionRecord φ → Prop} {d : Fields (Number φ)}
    {documents : NativeDocuments φ} (h : documents.ReadFrom agrees d)
    (table : ExecutionState → List ExecutionState) : documents.Advances table documents := by
  obtain ⟨-, -, -, -, -, hrec⟩ := h.record
  obtain ⟨-, -, -, -, -, hprog⟩ := h.progress
  obtain ⟨time, htime⟩ := Option.isSome_iff_exists.1 (Bool.and_eq_true_iff.1 hrec.updatedAt).2
  refine ⟨⟨rfl, rfl, rfl, fun _ h => h, fun _ h => h, fun _ h => h⟩, ?_, ?_⟩
  · exact
      { createdAt := rfl
        updatedAt := ⟨time, htime, time, htime, le_rfl⟩
        submitted := fun h => h
        reached := fun h => absurd rfl h
        activated := fun hold hnew _ => absurd hold hnew
        kept := fun _ => rfl
        returnCode := fun _ h => h
        error := fun _ h => h }
  · intro package hpkg
    refine ⟨package, packageOf_of_mem hprog.distinct hpkg, rfl, le_rfl, fun e he => ?_⟩
    exact ⟨e, he, le_rfl, fun _ => ⟨rfl, decide_eq_true rfl⟩, fun h => absurd rfl h⟩

/-- The worker accepts a history step by step. -/
def NativeHistory [IsoFormat] (history : List (NativeDocuments φ)) : Prop :=
  history.IsChain fun a b => validateNativeTransition a b = .ok ()

/-- **Which histories are accepted in every sample**: those in which `submitted` is never seen
after `scripted` or `running`. -/
theorem native_samples_accepted_iff [IsoFormat] (history : List (NativeDocuments φ))
    (hread : ∀ documents ∈ history, ∃ d, documents.ReadFrom Worker.Trimmed d)
    (h : NativeHistory history) :
    (∀ sample : List (NativeDocuments φ), sample.Sublist history → NativeHistory sample) ↔
      history.Pairwise fun a b => ¬ Relapse a.executionRecord.state b.executionRecord.state := by
  have hlife : ∀ documents ∈ history,
      Lifecycle documents.executionRecord.state documents.executionRecord.terminal := by
    intro documents hdocs
    obtain ⟨d, hd⟩ := hread documents hdocs
    obtain ⟨-, -, -, -, -, hsound⟩ := hd.record
    exact hsound.lifecycle
  refine Durable.sampled_iff (S := fun a b => a.Advances eventualStates b) hlife ?_ ?_ h
  · intro a b _ _
    exact validateNativeTransition_eq_ok.trans NativeDocuments.advances_iff
  · intro a b c ha _ hc hab hbc
    exact hab.trans ha hc hbc

end Progress

end ClioQueue.Jarvis
