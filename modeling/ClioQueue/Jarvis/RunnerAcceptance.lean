/-
# What the runner accepts

Each of the runner's checks, read as a condition on what it is given, and from these
`Runner.validatedNativeExecutionDocuments_eq_ok`: the runner accepts exactly the documents of
the producer's contract, with the three values of a submission compared as they stand
(`Runner.Repeated`).
-/

import ClioQueue.Durable.Results
import ClioQueue.Jarvis.RunnerDocuments

namespace ClioQueue.Jarvis

open Durable Wire

variable {φ : Type}

/-! ### Members and their texts -/

theorem withText_eq_some {α : Type} {text : α → String} {members : List α}
    (h : ∀ a, withText text members (text a) = some a) {s : String} {a : α} :
    withText text members s = some a ↔ text a = s := by
  constructor
  · intro hs
    have hfound := List.find?_some (p := fun a => text a == s) hs
    exact beq_iff_eq.1 hfound
  · rintro rfl
    exact h a

theorem withText_mode (mode : ExecutionMode) :
    withText ExecutionMode.text executionModes mode.text = some mode := by
  cases mode <;> decide

theorem withText_state (state : ExecutionState) :
    withText ExecutionState.text executionStates state.text = some state := by
  cases state <;> decide

theorem withText_progressState (state : ProgressState) :
    withText ProgressState.text progressStates state.text = some state := by
  cases state <;> decide

/-! ### The runner's checks -/

namespace Runner

@[simp]
theorem ensure_eq_ok {condition : Bool} {message : String} {u : Unit} :
    ensure condition message = .ok u ↔ condition = true := by
  cases condition <;> simp [ensure]

@[simp]
theorem asDict_eq_ok {value : Value (Number φ)} {message : String} {d : Fields (Number φ)} :
    asDict value message = .ok d ↔ value = .dict d := by
  cases value <;> simp [asDict]

@[simp]
theorem asBool_eq_ok {value : Value (Number φ)} {message : String} {b : Bool} :
    asBool value message = .ok b ↔ value = .bool b := by
  cases value <;> simp [asBool]

@[simp]
theorem asNatural_eq_ok {value : Value (Number φ)} {message : String} {n : Nat} :
    asNatural value message = .ok n ↔ value = .num (.int n) := by
  unfold asNatural
  split
  · simp
  · rename_i hv
    simp only [reduceCtorEq, false_iff]
    exact hv n

@[simp]
theorem asOptionalInt_eq_ok {value : Value (Number φ)} {message : String} {n : Option Int} :
    asOptionalInt value message = .ok n ↔ value = optionalInt n := by
  unfold asOptionalInt
  split
  · cases n <;> simp [optionalInt]
  · cases n <;> simp [optionalInt]
  · rename_i hnull hint
    rcases n with _ | n
    · simpa [optionalInt] using hnull
    · simpa [optionalInt] using hint n

theorem memberOf_eq_ok {α : Type} {text : α → String} {members : List α}
    (h : ∀ a, withText text members (text a) = some a) {value : Value (Number φ)}
    {message : String} {a : α} :
    memberOf text members value message = .ok a ↔ value = .str (text a) := by
  cases value with
  | str s =>
    rw [memberOf, Value.str.injEq, eq_comm (a := s), ← withText_eq_some h]
    cases withText text members s <;> simp
  | _ => simp [memberOf]

/-- A text is accepted as it stands, if it is within its length and has no character that is
refused. -/
@[simp]
theorem nativeText_eq_ok {value : Value (Number φ)} {field : String} {maximum : Nat}
    {allowNewlines : Bool} {text : String} :
    nativeText value field maximum allowNewlines = .ok text ↔
      value = .str text ∧ isNativeText maximum allowNewlines text = true := by
  cases value with
  | str =>
    simp only [nativeText, bind_eq_ok, ensure_eq_ok, pure_eq_ok, exists_const, isNativeText,
      Bool.and_eq_true, Value.str.injEq]
    constructor
    · rintro ⟨hbdd, hcontrols, rfl⟩
      exact ⟨rfl, hbdd, hcontrols⟩
    · rintro ⟨rfl, hbdd, hcontrols⟩
      exact ⟨hbdd, hcontrols, rfl⟩
  | _ => simp [nativeText]

@[simp]
theorem optionalNativeText_eq_ok {value : Value (Number φ)} {field : String} {maximum : Nat}
    {allowNewlines : Bool} {text : Option String} :
    optionalNativeText value field maximum allowNewlines = .ok text ↔
      value = optionalText text ∧ text.all (isNativeText maximum allowNewlines) = true := by
  unfold optionalNativeText
  split
  · cases text <;> simp [optionalText]
  · rename_i hnull
    simp only [map_eq_ok, nativeText_eq_ok]
    rcases text with _ | s
    · simpa [optionalText] using hnull
    · simp [optionalText]

@[simp]
theorem nativeIdentity_eq_ok {value : Value (Number φ)} {field text : String} :
    nativeIdentity value field = .ok text ↔ value = .str text ∧ isNativeIdentity text = true := by
  simp only [nativeIdentity, bind_eq_ok, nativeText_eq_ok, ensure_eq_ok, pure_eq_ok, exists_const,
    isNativeIdentity, Bool.and_eq_true]
  constructor
  · rintro ⟨_, ⟨rfl, htext⟩, hportable, rfl⟩
    exact ⟨rfl, htext, hportable⟩
  · rintro ⟨rfl, htext, hportable⟩
    exact ⟨text, ⟨rfl, htext⟩, hportable, rfl⟩

/-- A timestamp is accepted as the text that it is. -/
theorem nativeTimestamp_eq_ok [IsoFormat] {value : Value (Number φ)} {field text : String} :
    nativeTimestamp value field = .ok text ↔
      value = .str text ∧ isNativeTimestamp text = true := by
  simp only [nativeTimestamp, bind_eq_ok, nativeText_eq_ok, isNativeTimestamp, instantOf,
    Bool.and_eq_true]
  constructor
  · rintro ⟨s, ⟨rfl, htext⟩, hparse⟩
    split at hparse
    · cases hparse
    · rename_i parsed hparsed
      simp only [bind_eq_ok, ensure_eq_ok, pure_eq_ok, exists_const] at hparse
      obtain ⟨hoff, rfl⟩ := hparse
      exact ⟨rfl, htext, by simpa [hparsed] using hoff⟩
  · rintro ⟨rfl, htext, hinstant⟩
    refine ⟨text, ⟨rfl, htext⟩, ?_⟩
    rcases hparsed : IsoFormat.fromisoformat (replaceZ text) with _ | parsed
    · simp [hparsed] at hinstant
    · simp only [bind_eq_ok, ensure_eq_ok, pure_eq_ok, exists_const]
      simpa [hparsed] using hinstant

/-! ### The documents -/

/-- The runner accepts a handle exactly if the document reads as that handle, field by field. -/
theorem validatedNativeExecutionHandle_eq_ok {value : Value (Number φ)} {handle : ExecutionHandle} :
    validatedNativeExecutionHandle value = .ok handle ↔ handle.ReadFrom value := by
  unfold validatedNativeExecutionHandle
  simp only [bind_eq_ok, asDict_eq_ok, ensure_eq_ok, nativeIdentity_eq_ok,
    memberOf_eq_ok withText_mode, optionalNativeText_eq_ok, pure_eq_ok, exists_const,
    Bool.and_eq_true, Bool.or_eq_true, decide_eq_true_eq, Value.isStr_iff]
  constructor
  · rintro ⟨d, rfl, ⟨hfields, hsch⟩, executionId, ⟨hexec, hexec'⟩, pipelineId,
      ⟨hpipe, hpipe'⟩, mode, hmode, provider, ⟨hprov, hprov'⟩, nativeId,
      ⟨hnid, hnid'⟩, cluster, ⟨hcl, hcl'⟩, hdirect, hsched, hslurm,
      hslurmCluster, rfl⟩
    refine ⟨d, rfl, hfields, hsch, ⟨hexec, hpipe, hmode, hprov, hnid, hcl⟩,
      ⟨hexec', hpipe', hprov', hnid', hcl', ?_, ?_, ?_⟩⟩
    · rintro rfl
      simpa [and_assoc] using hdirect
    · rintro rfl
      simpa [Option.isSome_iff_ne_none] using hsched
    · rintro rfl
      exact ⟨by simpa using hslurm, by simpa using hslurmCluster⟩
  · rintro ⟨d, rfl, hfields, hsch, hd, hsound⟩
    refine ⟨d, rfl, ⟨hfields, hsch⟩, _, ⟨hd.executionId, hsound.executionId⟩, _,
      ⟨hd.pipelineId, hsound.pipelineId⟩, _, hd.mode, _, ⟨hd.provider, hsound.provider⟩, _,
      ⟨hd.nativeId, hsound.nativeId⟩, _, ⟨hd.cluster, hsound.cluster⟩, ?_, ?_, ?_, ?_, rfl⟩
    · by_cases hmode : handle.mode = .direct
      · simpa [hmode, and_assoc] using hsound.direct hmode
      · simp [hmode]
    · by_cases hmode : handle.mode = .scheduler
      · simpa [hmode, Option.isSome_iff_ne_none] using hsound.scheduler hmode
      · simp [hmode]
    · by_cases hslurm : handle.schedulerProvider = some "slurm"
      · exact Or.inr (hsound.slurm hslurm).1
      · exact Or.inl hslurm
    · by_cases hslurm : handle.schedulerProvider = some "slurm"
      · exact Or.inr (hsound.slurm hslurm).2
      · exact Or.inl hslurm

@[simp]
theorem repeats_iff {value : Value (Number φ)} {text : Option String} :
    repeats value text = true ↔ value = optionalText text := by
  cases text <;> simp [repeats, optionalText]

/-- The three values of a submission are those of its record as they stand. -/
def Repeated (submission : Fields (Number φ)) (record : ExecutionRecord φ) : Prop :=
  submission.get "provider" = optionalText record.schedulerProvider ∧
    submission.get "scheduler_job_id" = optionalText record.schedulerNativeId ∧
    submission.get "scheduler_cluster" = optionalText record.cluster

theorem exists_optionalText_iff {value : Value (Number φ)} {p : String → Bool} :
    (∃ text, value = optionalText text ∧ text.all p = true) ↔
      value = .null ∨ ∃ text, value = .str text ∧ p text = true := by
  constructor
  · rintro ⟨text, hv, htext⟩
    rcases text with _ | text
    · exact Or.inl hv
    · exact Or.inr ⟨text, hv, by simpa using htext⟩
  · rintro (hv | ⟨text, hv, htext⟩)
    · exact ⟨none, hv, rfl⟩
    · exact ⟨some text, hv, by simpa using htext⟩

/-- A submission is accepted exactly if it repeats what proves the execution record. -/
theorem validateSubmission_eq_ok {record : ExecutionRecord φ} {submission : Fields (Number φ)}
    {u : Unit} :
    validateSubmission record.handle record.submitted submission = .ok u ↔
      record.Proven Repeated submission := by
  unfold validateSubmission
  simp only [bind_eq_ok, ensure_eq_ok, exists_const, Bool.and_eq_true, Bool.or_eq_true,
    decide_eq_true_eq, Value.isStr_iff, Value.isBool_iff, Value.isNull_iff, submissionMatches,
    repeats_iff, forM_eq_ok, optionalNativeText_eq_ok, pure_eq_ok, and_true,
    exists_optionalText_iff]
  constructor
  · rintro ⟨hmode, ⟨⟨⟨hsch, hexec⟩, ⟨hprov, hnid⟩, hcl⟩, hsub⟩, hsrc, hnone, hpaths⟩
    refine ⟨hmode, hsch, hexec, ⟨hprov, hnid, hcl⟩, hsub, ?_, ?_, hpaths⟩
    · intro hclaimed
      exact hsrc.resolve_left fun h => hclaimed (Option.isNone_iff_eq_none.1 h)
    · intro hclaimed
      refine hnone.resolve_left fun h => ?_
      rw [ExecutionRecord.handle, hclaimed] at h
      cases h
  · rintro ⟨hmode, hsch, hexec, ⟨hprov, hnid, hcl⟩, hsub, hsrc, hnone, hpaths⟩
    refine ⟨hmode, ⟨⟨⟨hsch, hexec⟩, ⟨hprov, hnid⟩, hcl⟩, hsub⟩, ?_, ?_, hpaths⟩
    · by_cases hclaimed : record.schedulerNativeId = none
      · exact Or.inl (Option.isNone_iff_eq_none.2 hclaimed)
      · exact Or.inr (hsrc hclaimed)
    · by_cases hclaimed : record.schedulerNativeId = none
      · exact Or.inr (hnone hclaimed)
      · exact Or.inl (Option.isSome_iff_ne_none.2 hclaimed)

theorem validateProof_eq_ok {record : ExecutionRecord φ} {u : Unit} :
    validateProof record.handle record.submitted (Fields.get record.metadata "submission") = .ok u ↔
      record.Backed Repeated := by
  unfold validateProof ExecutionRecord.Backed
  cases Fields.get record.metadata "submission" with
  | null => simp [ExecutionRecord.handle]
  | dict => exact validateSubmission_eq_ok
  | _ => simp

theorem fieldsOf_handleProjection {d : Fields (Number φ)} {handle : ExecutionHandle} :
    handle.FieldsOf (handleProjection d) ↔ handle.FieldsOf d := by
  constructor
  all_goals
    rintro ⟨h₁, h₂, h₃, h₄, h₅, h₆⟩
    exact ⟨h₁, h₂, h₃, h₄, h₅, h₆⟩

theorem readFrom_handleProjection {d : Fields (Number φ)} {handle : ExecutionHandle} :
    handle.ReadFrom (.dict (handleProjection d)) ↔ handle.FieldsOf d ∧ handle.Sound := by
  constructor
  · rintro ⟨_, hd, -, -, hread, hsound⟩
    cases hd
    exact ⟨fieldsOf_handleProjection.1 hread, hsound⟩
  · rintro ⟨hread, hsound⟩
    exact ⟨_, rfl, rfl, rfl, fieldsOf_handleProjection.2 hread, hsound⟩

variable [PyFloat φ] {d : Fields (Number φ)} {packages : List (PackageProgress φ)}
  {values : List (Value (Number φ))} {seen : List String} {n : Number φ}
  {latest : Option (ProgressEvent φ)} {package : PackageProgress φ} {executionId : String}
  {value : Value (Number φ)} {p : φ → Bool}

@[simp]
theorem boundedFiniteJson_eq_ok {label : String} {maximum : Nat} {u : Unit} :
    boundedFiniteJson d label maximum = .ok u ↔ isBoundedJson maximum d = true :=
  ensure_eq_ok

theorem lifecycle_iff {state : ExecutionState} {terminal : Bool} :
    (!terminal || terminalStates.contains state) = true ∧
        (!endedStates.contains state || terminal) = true ↔ Lifecycle state terminal := by
  cases state <;> cases terminal <;> decide

/-- **What the runner accepts of a record.** -/
theorem validatedNativeExecutionRecord_eq_ok [IsoFormat] {record : ExecutionRecord φ} :
    validatedNativeExecutionRecord value = .ok record ↔ record.ReadFrom Repeated value := by
  unfold validatedNativeExecutionRecord
  simp only [bind_eq_ok, asDict_eq_ok, ensure_eq_ok, validatedNativeExecutionHandle_eq_ok,
    readFrom_handleProjection, memberOf_eq_ok withText_state, asBool_eq_ok, asOptionalInt_eq_ok,
    nativeTimestamp_eq_ok, optionalNativeText_eq_ok, boundedFiniteJson_eq_ok, pure_eq_ok,
    exists_const, Bool.and_eq_true, Value.isStr_iff]
  constructor
  · rintro ⟨d, rfl, ⟨hfields, hsch⟩, handle, ⟨hhandle, hsound⟩, hname, state, hst, submitted,
      hsub, terminal, hterm, hended, hflag, returnCode, hcode, hcomp, hfail,
      createdAt, ⟨hcreate, hcreate'⟩, updatedAt, ⟨hupd, hupd'⟩, error, ⟨herr, herr'⟩,
      metadata, hmeta, hbdd, _, hproof, rfl⟩
    refine ⟨d, rfl, hfields, hsch,
      ⟨hhandle, hname, hst, hsub, hterm, hcreate, hupd, hcode, herr, hmeta⟩,
      ⟨hsound, rfl, lifecycle_iff.1 ⟨hended, hflag⟩, ?_, ?_, hcreate', hupd', herr', hbdd,
        validateProof_eq_ok.1 hproof⟩⟩
    · rintro rfl
      simpa using hcomp
    · rintro rfl
      simpa using hfail
  · rintro ⟨d, rfl, hfields, hsch, hd, hsound⟩
    have hlife := lifecycle_iff.2 hsound.lifecycle
    refine ⟨d, rfl, ⟨hfields, hsch⟩, record.handle, ⟨hd.handle, hsound.handle⟩, ?_, _, hd.state,
      _, hd.submitted, _, hd.terminal, hlife.1, hlife.2, _, hd.returnCode, ?_, ?_, _,
      ⟨hd.createdAt, hsound.createdAt⟩, _, ⟨hd.updatedAt, hsound.updatedAt⟩, _,
      ⟨hd.error, hsound.error⟩, _, hd.metadata, hsound.metadata, (),
      validateProof_eq_ok.2 hsound.backed, ?_⟩
    · rw [hd.pipelineName, hsound.pipelineName]
      rfl
    · by_cases hcomp : record.state = .completed
      · simp [hsound.completed hcomp]
      · simp [hcomp]
    · by_cases hfail : record.state = .failed
      · simpa [hfail] using hsound.failed hfail
      · simp [hfail]
    · obtain ⟨_, _, pipelineName⟩ := record
      have hname := hsound.pipelineName
      dsimp only at hname
      subst hname
      rfl

/-! ### The progress -/

/-- A value that is `None`, or a number whose float satisfies a condition. -/
theorem finiteProgressNumber_checked {x : Option φ} :
    finiteProgressNumber value = .ok x ∧ (value = .null ∨ x.any p = true) ↔
      ∃ number, value = optionalNumber number ∧ x = number.bind Number.toFloat ∧
        ∀ n ∈ number, ∃ y, n.toFloat = some y ∧ p y = true := by
  constructor
  · rintro ⟨hread, hcheck⟩
    cases value with
    | null =>
      cases hread
      exact ⟨none, rfl, rfl, by simp⟩
    | num n =>
      simp only [finiteProgressNumber] at hread
      split at hread
      · rename_i y hy
        cases hread
        exact ⟨some n, rfl, hy.symm, by simpa [hy] using hcheck⟩
      · cases hread
    | _ =>
      cases hread
      simp at hcheck
  · rintro ⟨number, rfl, rfl, hcheck⟩
    rcases number with _ | n
    · exact ⟨rfl, Or.inl rfl⟩
    · obtain ⟨y, hy, hp⟩ := hcheck n rfl
      simp [optionalNumber, finiteProgressNumber, hy, hp]

theorem isNonnegative_iff :
    isNonnegative n ↔ ∃ y, n.toFloat = some y ∧ decide (0 ≤ PyFloat.value y) = true := by
  simp [isNonnegative]

theorem isTotalOf_iff {current : Option (Number φ)} {total : Number φ} :
    isTotalOf current total ↔ ∃ y, total.toFloat = some y ∧
      (decide (0 < PyFloat.value y) && (current.bind Number.toFloat).any fun x =>
        decide (PyFloat.value x ≤ PyFloat.value y)) = true := by
  rcases current with _ | c
  · simp [isTotalOf]
  · cases hc : c.toFloat <;> simp [isTotalOf, hc]

theorem isSome_toFloat {number : Option (Number φ)}
    (h : ∀ n ∈ number, ∃ y, n.toFloat = some y ∧ p y = true) :
    (number.bind Number.toFloat).isSome = number.isSome := by
  rcases number with _ | n
  · rfl
  · obtain ⟨y, hy, -⟩ := h n rfl
    simp [hy]

omit [PyFloat φ] in
theorem num?_optionalNumber (number : Option (Number φ)) :
    (optionalNumber number).num? = number := by
  cases number <;> rfl

/-- The number of an event's `observed_at_epoch`. -/
theorem observedNumber_iff (message : String) :
    (∃ x, finiteProgressNumber value = .ok x ∧
        x.any (fun y => decide (0 ≤ PyFloat.value y)) = true) ∧
      value.num?.elim (.error (.protocol message)) .ok = (.ok n : Except RunnerFailure (Number φ)) ↔
      value = .num n ∧ isNonnegative n := by
  constructor
  · rintro ⟨⟨x, hx, hepoch⟩, hread⟩
    obtain ⟨number, rfl, rfl, hcheck⟩ := finiteProgressNumber_checked.1 ⟨hx, Or.inr hepoch⟩
    rw [num?_optionalNumber] at hread
    rcases number with _ | m
    · cases hread
    · cases hread
      exact ⟨rfl, isNonnegative_iff.2 (hcheck n rfl)⟩
  · rintro ⟨rfl, y, hy, hnn⟩
    exact ⟨⟨some y, by simp [finiteProgressNumber, hy], by simpa using hnn⟩, rfl⟩

/-- **What the runner accepts of an event.** -/
theorem validatedNativeProgressEvent_eq_ok {event : ProgressEvent φ} :
    validatedNativeProgressEvent value = .ok event ↔ event.ReadFrom value := by
  unfold validatedNativeProgressEvent
  simp only [bind_eq_ok, asDict_eq_ok, ensure_eq_ok, nativeText_eq_ok,
    memberOf_eq_ok withText_progressState, asNatural_eq_ok, optionalNativeText_eq_ok,
    boundedFiniteJson_eq_ok, pure_eq_ok, exists_const, Bool.and_eq_true, Bool.or_eq_true,
    Value.isStr_iff, Value.isNull_iff, Value.isBool_iff]
  constructor
  · rintro ⟨d, rfl, ⟨⟨hreq, honly⟩, hsch⟩, packageName, ⟨hname, hname'⟩, packageId,
      ⟨hid, hid'⟩, executionId, ⟨hexec, hexec'⟩, label, ⟨hlab, hlab'⟩, state, hst,
      sequence, hseq, observed, hobs, hepoch, current, hcur, total, htot, hcur',
      htot', hdet, unit, ⟨hunit, hunit'⟩, message, ⟨hmsg, hmsg'⟩, metadata,
      hmeta, hbdd, observedAtEpoch, hread, rfl⟩
    obtain ⟨hepoch, hnn⟩ := (observedNumber_iff _).1 ⟨⟨observed, hobs, hepoch⟩, hread⟩
    obtain ⟨c, hc, rfl, hcheck⟩ := finiteProgressNumber_checked.1 ⟨hcur, hcur'⟩
    obtain ⟨t, ht, rfl, htotals⟩ := finiteProgressNumber_checked.1 ⟨htot, htot'⟩
    have hflag : ((c.bind Number.toFloat).isSome && (t.bind Number.toFloat).isSome) =
        (c.isSome && t.isSome) := by rw [isSome_toFloat hcheck, isSome_toFloat htotals]
    rw [hflag] at hdet
    rw [hc, ht, num?_optionalNumber, num?_optionalNumber, hflag]
    exact ⟨d, rfl, hreq, honly, hsch,
      ⟨hname, hid, hexec, hlab, hst, hc, ht, hunit, hmsg, hseq, hepoch, hdet, hmeta, rfl⟩,
      ⟨hname', hid', hexec', hlab', hnn, fun n hn => isNonnegative_iff.2 (hcheck n hn),
        fun n hn => isTotalOf_iff.2 (htotals n hn), rfl, hunit', hmsg', hbdd⟩⟩
  · rintro ⟨d, rfl, hreq, honly, hsch, hd, hsound⟩
    obtain ⟨⟨observed, hobs, hepoch⟩, hread⟩ :=
      (observedNumber_iff "MCP native JARVIS progress timestamp was invalid").2
        ⟨hd.observedAtEpoch, hsound.observed⟩
    have hcheck : ∀ n ∈ event.current, ∃ y, n.toFloat = some y ∧
        decide (0 ≤ PyFloat.value y) = true := fun n hn => isNonnegative_iff.1 (hsound.current n hn)
    obtain ⟨hcur, hcur'⟩ :=
      finiteProgressNumber_checked.2 ⟨event.current, hd.current, rfl, hcheck⟩
    have htotals := fun n hn => isTotalOf_iff.1 (hsound.total n hn)
    obtain ⟨htot, htot'⟩ :=
      finiteProgressNumber_checked.2 ⟨event.total, hd.total, rfl, htotals⟩
    have hflag : ((event.current.bind Number.toFloat).isSome &&
        (event.total.bind Number.toFloat).isSome) = event.determinate := by
      rw [isSome_toFloat hcheck, isSome_toFloat htotals, hsound.determinate]
    refine ⟨d, rfl, ⟨⟨hreq, honly⟩, hsch⟩, _, ⟨hd.packageName, hsound.packageName⟩, _,
      ⟨hd.packageId, hsound.packageId⟩, _, ⟨hd.executionId, hsound.executionId⟩, _,
      ⟨hd.label, hsound.label⟩, _, hd.state, _, hd.sequence, observed, hobs, hepoch, _,
      hcur, _, htot, hcur', htot', ?_, _, ⟨hd.unit, hsound.unit⟩, _,
      ⟨hd.message, hsound.message⟩, _, hd.metadata, hsound.metadata, _, hread, ?_⟩
    · rw [hflag, hd.determinate]
    · rw [hflag, hd.current, hd.total, num?_optionalNumber, num?_optionalNumber, ← hd.given]

theorem latestEvent_eq_ok :
    validatedNativePackage.latestEvent value = .ok latest ↔
      match latest with
      | none => value = .null
      | some event => event.ReadFrom value := by
  unfold validatedNativePackage.latestEvent
  split
  · rcases latest with _ | event
    · simp
    · simp [ProgressEvent.ReadFrom]
  · rename_i hnull
    rw [map_eq_ok]
    rcases latest with _ | event
    · simpa using hnull
    · simp [validatedNativeProgressEvent_eq_ok]

omit [PyFloat φ] in
theorem counted_iff {n : Nat} : ((n == 0) == latest.isNone) = true ↔ (n = 0 ↔ latest = none) := by
  cases latest <;> simp

omit [PyFloat φ] in
theorem owns_iff :
    package.latest.all (fun event => event.packageId = package.packageId &&
        event.packageName = package.packageName && event.executionId = executionId) = true ↔
      ∀ event ∈ package.latest, package.Owns executionId event := by
  simp only [Option.all_eq_true, Bool.and_eq_true, decide_eq_true_eq]
  constructor
  · intro h event hev
    obtain ⟨⟨hid, hname⟩, hexec⟩ := h event hev
    exact ⟨hid, hname, hexec⟩
  · intro h event hev
    obtain ⟨hid, hname, hexec⟩ := h event hev
    exact ⟨⟨hid, hname⟩, hexec⟩

/-- A package is accepted exactly if it is read from its document and its id was not seen before. -/
theorem validatedNativePackage_eq_ok :
    validatedNativePackage executionId seen value = .ok package ↔
      package.ReadFrom executionId value ∧ package.packageId ∉ seen := by
  unfold validatedNativePackage
  simp only [bind_eq_ok, asDict_eq_ok, ensure_eq_ok, nativeText_eq_ok, asNatural_eq_ok,
    latestEvent_eq_ok, pure_eq_ok, exists_const]
  constructor
  · rintro ⟨d, rfl, hfields, packageId, ⟨hid, hid'⟩, packageName, ⟨hname, hname'⟩, eventCount,
      hcount, hseen, latest, hlat, hcnt, howns, rfl⟩
    exact ⟨⟨d, rfl, hfields, ⟨hid, hname, hcount, hlat⟩,
      ⟨hid', hname', counted_iff.1 hcnt, owns_iff.1 howns⟩⟩, by simpa using hseen⟩
  · rintro ⟨⟨d, rfl, hfields, hd, hsound⟩, hseen⟩
    exact ⟨d, rfl, hfields, _, ⟨hd.packageId, hsound.packageId⟩, _,
      ⟨hd.packageName, hsound.packageName⟩, _, hd.eventCount, by simpa using hseen, _, hd.latest,
      counted_iff.2 hsound.counted, owns_iff.2 hsound.owns, rfl⟩

/-- Packages are accepted exactly if each is read from its document and no package id occurs twice,
here or among those seen before. -/
theorem validatedNativePackages_eq_ok :
    validatedNativePackages executionId seen values = .ok packages ↔
      List.Forall₂ (PackageProgress.ReadFrom executionId) values packages ∧
        (packageIds packages).Nodup ∧ ∀ id ∈ packageIds packages, id ∉ seen := by
  induction values generalizing seen packages with
  | nil =>
    rw [validatedNativePackages, Except.ok.injEq, List.forall₂_nil_left_iff]
    constructor
    · rintro rfl
      simp [packageIds]
    · rintro ⟨rfl, -⟩
      rfl
  | cons value values ih =>
    simp only [validatedNativePackages, bind_eq_ok, validatedNativePackage_eq_ok, ih, pure_eq_ok,
      List.forall₂_cons_left_iff]
    constructor
    · rintro ⟨package, ⟨hread, hseen⟩, rest, ⟨hrest, hnd, hfresh⟩, rfl⟩
      refine ⟨⟨package, rest, hread, hrest, rfl⟩, List.nodup_cons.2 ⟨?_, hnd⟩, ?_⟩
      · intro hmem
        exact hfresh _ hmem List.mem_cons_self
      · intro id hid
        rcases List.mem_cons.1 hid with rfl | hid
        · exact hseen
        · exact fun hmem => hfresh id hid (List.mem_cons_of_mem _ hmem)
    · rintro ⟨⟨package, rest, hread, hrest, rfl⟩, hnd, hfresh⟩
      obtain ⟨hhead, hnd⟩ := List.nodup_cons.1 hnd
      refine ⟨package, ⟨hread, hfresh _ List.mem_cons_self⟩, rest, ⟨hrest, hnd, ?_⟩, rfl⟩
      intro id hid hmem
      rcases List.mem_cons.1 hmem with rfl | hmem
      · exact hhead hid
      · exact hfresh id (List.mem_cons_of_mem _ hid) hmem

theorem sound_of_mem (h : List.Forall₂ (PackageProgress.ReadFrom executionId) values packages) :
    ∀ package ∈ packages, package.Sound executionId := by
  induction h with
  | nil => simp
  | cons hread _ ih =>
    obtain ⟨_, -, -, -, hsound⟩ := hread
    exact List.forall_mem_cons.2 ⟨hsound, ih⟩

/-- **What the runner accepts of a snapshot.** -/
theorem validatedNativeProgressSnapshot_eq_ok {progress : ExecutionProgress φ} :
    validatedNativeProgressSnapshot value = .ok progress ↔ progress.ReadFrom value := by
  unfold validatedNativeProgressSnapshot
  simp only [bind_eq_ok, asDict_eq_ok, ensure_eq_ok, nativeIdentity_eq_ok,
    memberOf_eq_ok withText_state, asBool_eq_ok, exists_const, Bool.and_eq_true, Value.isStr_iff]
  constructor
  · rintro ⟨d, rfl, ⟨hfields, hsch⟩, executionId, ⟨hexec, hexec'⟩, pipelineId,
      ⟨hpipe, hpipe'⟩, state, hst, terminal, hterm, hended, hflag, hpkgs⟩
    split at hpkgs
    · rename_i items hitems
      simp only [bind_eq_ok, validatedNativePackages_eq_ok, pure_eq_ok] at hpkgs
      obtain ⟨packages, ⟨hread, hnd, -⟩, rfl⟩ := hpkgs
      exact ⟨d, rfl, hfields, hsch,
        ⟨hexec, hpipe, hst, hterm, items, hitems, hread⟩,
        ⟨hexec', hpipe', lifecycle_iff.1 ⟨hended, hflag⟩, hnd, sound_of_mem hread⟩⟩
    · cases hpkgs
  · rintro ⟨d, rfl, hfields, hsch, hd, hsound⟩
    obtain ⟨items, hitems, hread⟩ := hd.packages
    obtain ⟨hended, hflag⟩ := lifecycle_iff.2 hsound.lifecycle
    refine ⟨d, rfl, ⟨hfields, hsch⟩, _, ⟨hd.executionId, hsound.executionId⟩, _,
      ⟨hd.pipelineId, hsound.pipelineId⟩, _, hd.executionState, _, hd.terminal, hended, hflag, ?_⟩
    simp only [hitems, bind_eq_ok, validatedNativePackages_eq_ok, pure_eq_ok]
    exact ⟨_, ⟨hread, hsound.distinct, by simp⟩, rfl⟩

omit [PyFloat φ] in
theorem bound_iff {documents : NativeDocuments φ} :
    (documents.executionHandle = documents.executionRecord.handle ∧
      ((documents.progress.executionId = documents.executionRecord.executionId ∧
        documents.progress.pipelineId = documents.executionRecord.pipelineId) ∧
        documents.progress.executionState = documents.executionRecord.state) ∧
        documents.progress.terminal = documents.executionRecord.terminal) ↔ documents.Bound := by
  constructor
  · rintro ⟨hhandle, ⟨⟨hexec, hpipe⟩, hst⟩, hterm⟩
    exact ⟨hhandle, hexec, hpipe, hst, hterm⟩
  · rintro ⟨hhandle, hexec, hpipe, hst, hterm⟩
    exact ⟨hhandle, ⟨⟨hexec, hpipe⟩, hst⟩, hterm⟩

/-- **The runner accepts the documents of the contract**, with the values of a submission as
they stand. -/
theorem validatedNativeExecutionDocuments_eq_ok [IsoFormat] (h : d.hasAll documentKeys = true)
    {documents : Option (NativeDocuments φ)} :
    validatedNativeExecutionDocuments d = .ok documents ↔
      ∃ read, documents = some read ∧ read.ReadFrom Repeated d := by
  have hsome : (documentKeys.all fun key => !d.has key) = false := by
    simp only [Fields.hasAll, documentKeys, List.all_cons, Bool.and_eq_true] at h
    simp [documentKeys, h.1]
  unfold validatedNativeExecutionDocuments
  rw [hsome]
  simp only [Bool.false_eq_true, if_false, bind_eq_ok, ensure_eq_ok, h, exists_const, true_and,
    validatedNativeExecutionHandle_eq_ok, validatedNativeExecutionRecord_eq_ok,
    validatedNativeProgressSnapshot_eq_ok, pure_eq_ok, Bool.and_eq_true, decide_eq_true_eq]
  constructor
  · rintro ⟨handle, hhandle, record, hrec, progress, hprog, hident, hlife, rfl⟩
    exact ⟨⟨handle, record, progress⟩, rfl, hhandle, hrec, hprog, bound_iff.1 ⟨hident, hlife⟩⟩
  · rintro ⟨read, rfl, hread⟩
    obtain ⟨hident, hlife⟩ := bound_iff.2 hread.bound
    exact ⟨_, hread.handle, _, hread.record, _, hread.progress, hident, hlife, rfl⟩

end Runner

end ClioQueue.Jarvis
