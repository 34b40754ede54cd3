/-
# What the worker accepts

The same for the worker's models: `Worker.nativeExecutionDocuments_eq_ok` says that they accept
exactly the documents of the producer's contract, with the three values of a submission compared
after `_optional_str` (`Worker.Trimmed`).
-/

import ClioQueue.Jarvis.RunnerAcceptance
import ClioQueue.Jarvis.WorkerDocuments

namespace ClioQueue.Jarvis.Worker

open Durable Wire

variable {φ : Type}

/-! ### Strict fields -/

/-- A model takes a dictionary that has every required field and no field beyond the optional
ones. -/
theorem modelFields_eq_ok {value : Value (Number φ)} {required optional : List String}
    {d : Fields (Number φ)} :
    modelFields value required optional = .ok d ↔ value = .dict d ∧ d.hasAll required = true ∧
      d.onlyHas (required ++ optional) = true := by
  cases value with
  | dict fields =>
    have hall : (required.find? fun name => !Fields.has fields name) = none ↔
        Fields.hasAll fields required = true := by
      simp [Fields.hasAll]
    have honly : ((Fields.keys fields).find? fun name => !(required ++ optional).contains name) =
        none ↔ Fields.onlyHas fields (required ++ optional) = true := by
      simp [Fields.onlyHas, Fields.keys, or_iff_not_imp_left]
    unfold modelFields
    dsimp only
    rcases hr : required.find? fun name => !Fields.has fields name with _ | name
    · cases ho : (Fields.keys fields).find? fun name => !(required ++ optional).contains name with
      | some =>
        simp only [reduceCtorEq, false_iff, Value.dict.injEq]
        rintro ⟨rfl, -, hknown⟩
        rw [honly.2 hknown] at ho
        cases ho
      | none =>
        simp only [Except.ok.injEq, Value.dict.injEq]
        constructor
        · rintro rfl
          exact ⟨rfl, hall.1 hr, honly.1 ho⟩
        · rintro ⟨rfl, -⟩
          rfl
    · simp only [reduceCtorEq, false_iff, Value.dict.injEq]
      rintro ⟨rfl, hreq, -⟩
      rw [hall.2 hreq] at hr
      cases hr
  | _ => simp [modelFields]

@[simp]
theorem modelFields_exact {value : Value (Number φ)} {names : List String} {d : Fields (Number φ)} :
    modelFields value names [] = .ok d ↔ value = .dict d ∧ d.hasExactly names = true := by
  rw [modelFields_eq_ok, Fields.hasExactly, Bool.and_eq_true, List.append_nil]

@[simp]
theorem literal_eq_ok {d : Fields (Number φ)} {name text : String} {u : Unit} :
    literal d name text = .ok u ↔ d.get name = .str text := by
  unfold literal
  split_ifs with h
  · simpa using h
  · simpa using h

@[simp]
theorem field_eq_ok {α : Type} {read : Value (Number φ) → Option α} {d : Fields (Number φ)}
    {name : String} {a : α} : field read d name = .ok a ↔ read (d.get name) = some a := by
  unfold field
  cases read (d.get name) <;> simp

@[simp]
theorem mode?_eq_some {value : Value (Number φ)} {mode : ExecutionMode} :
    mode? value = some mode ↔ value = .str mode.text := by
  simp only [mode?, Option.bind_eq_some_iff, Value.str?_eq_some, withText_eq_some withText_mode]
  constructor
  · rintro ⟨_, rfl, rfl⟩
    rfl
  · rintro rfl
    exact ⟨_, rfl, rfl⟩

@[simp]
theorem optionalStr?_eq_some {value : Value (Number φ)} {text : Option String} :
    optionalStr? value = some text ↔ value = optionalText text := by
  cases value <;> cases text <;> simp [optionalStr?, optionalText]

@[simp]
theorem int?_eq_some {value : Value (Number φ)} {n : Int} :
    int? value = some n ↔ value = .num (.int n) := by
  unfold int?
  split
  · simp
  · rename_i h
    simp only [reduceCtorEq, false_iff]
    exact h n

@[simp]
theorem optionalInt?_eq_some {value : Value (Number φ)} {n : Option Int} :
    optionalInt? value = some n ↔ value = optionalInt n := by
  unfold optionalInt?
  split
  · cases n <;> simp [optionalInt]
  · cases n <;> simp [optionalInt]
  · rename_i hnull hint
    rcases n with _ | n
    · simpa [optionalInt] using hnull
    · simpa [optionalInt] using hint n

@[simp]
theorem optionalNumber?_eq_some {value : Value (Number φ)} {x : Option (Number φ)} :
    optionalNumber? value = some x ↔ value = optionalNumber x := by
  cases value <;> cases x <;> simp [optionalNumber?, optionalNumber]

@[simp]
theorem dict?_eq_some {value : Value (Number φ)} {d : Fields (Number φ)} :
    dict? value = some d ↔ value = .dict d := by
  cases value <;> simp [dict?]

@[simp]
theorem list?_eq_some {value : Value (Number φ)} {items : List (Value (Number φ))} :
    list? value = some items ↔ value = .list items := by
  cases value <;> simp [list?]

/-! ### Validators -/

@[simp]
theorem ensure_eq_ok {condition : Bool} {message : String} {u : Unit} :
    ensure condition message = .ok u ↔ condition = true := by
  cases condition <;> simp [ensure]

@[simp]
theorem validateNativeText_eq_ok {value name : String} {maximum : Nat} {allowNewlines : Bool}
    {u : Unit} :
    validateNativeText value name maximum allowNewlines = .ok u ↔
      isNativeText maximum allowNewlines value = true := by
  simp [validateNativeText, bind_eq_ok, isNativeText]

@[simp]
theorem validateOptionalText_eq_ok {value : Option String} {name : String} {maximum : Nat}
    {allowNewlines : Bool} {u : Unit} :
    validateOptionalText value name maximum allowNewlines = .ok u ↔
      value.all (isNativeText maximum allowNewlines) = true := by
  cases value <;> simp [validateOptionalText]

@[simp]
theorem validateNativeIdentity_eq_ok {value name : String} {u : Unit} :
    validateNativeIdentity value name = .ok u ↔ isNativeIdentity value = true := by
  simp [validateNativeIdentity, bind_eq_ok, isNativeIdentity]

@[simp]
theorem validateNativeTimestamp_eq_ok [IsoFormat] {value name : String} {u : Unit} :
    validateNativeTimestamp value name = .ok u ↔ isNativeTimestamp value = true := by
  simp only [validateNativeTimestamp, bind_eq_ok, validateNativeText_eq_ok, isNativeTimestamp,
    instantOf, Bool.and_eq_true, exists_const]
  refine and_congr_right fun _ => ?_
  cases IsoFormat.fromisoformat (replaceZ value) <;> simp

@[simp]
theorem validateNativeJson_eq_ok [PyFloat φ] {d : Fields (Number φ)} {label : String}
    {maximum : Nat} {u : Unit} :
    validateNativeJson d label maximum = .ok u ↔ isBoundedJson maximum d = true :=
  ensure_eq_ok

theorem member_eq_ok {α : Type} {text : α → String} {members : List α}
    (h : ∀ a, withText text members (text a) = some a) {s message : String} {a : α} :
    member text members s message = .ok a ↔ s = text a := by
  rw [eq_comm (a := s), ← withText_eq_some h, member]
  cases withText text members s <;> simp

/-! ### The documents -/

/-- The worker's check of a handle is that the handle is sound. -/
theorem validateIdentity_eq_ok {handle : ExecutionHandle} {u : Unit} :
    validateIdentity handle = .ok u ↔ handle.Sound := by
  unfold validateIdentity
  simp only [bind_eq_ok, ensure_eq_ok, validateNativeIdentity_eq_ok, validateOptionalText_eq_ok,
    exists_const, Bool.and_eq_true, Bool.or_eq_true, decide_eq_true_eq, ne_eq,
    Option.isNone_iff_eq_none]
  constructor
  · rintro ⟨hexec, hpipe, hprov, hnid, hcl, hdirect, hsched, hslurm, hslurmCluster⟩
    refine ⟨hexec, hpipe, hprov, hnid, hcl, ?_, ?_, ?_⟩
    · intro hmode
      simpa [and_assoc] using hdirect.resolve_left (not_not.2 hmode)
    · intro hmode
      exact Option.isSome_iff_ne_none.1 (hsched.resolve_left (not_not.2 hmode))
    · intro hprov
      exact ⟨hslurm.resolve_left (not_not.2 hprov), hslurmCluster.resolve_left (not_not.2 hprov)⟩
  · intro h
    refine ⟨h.executionId, h.pipelineId, h.provider, h.nativeId, h.cluster, ?_, ?_, ?_, ?_⟩
    · exact or_iff_not_imp_left.2 fun hmode => by
        simpa [and_assoc] using h.direct (not_not.1 hmode)
    · exact or_iff_not_imp_left.2 fun hmode =>
        Option.isSome_iff_ne_none.2 (h.scheduler (not_not.1 hmode))
    · exact or_iff_not_imp_left.2 fun hprov => (h.slurm (not_not.1 hprov)).1
    · exact or_iff_not_imp_left.2 fun hprov => (h.slurm (not_not.1 hprov)).2

theorem handleOf_eq_ok {d : Fields (Number φ)} {handle : ExecutionHandle} :
    handleOf d = .ok handle ↔ handle.FieldsOf d := by
  simp only [handleOf, bind_eq_ok, field_eq_ok, Value.str?_eq_some, mode?_eq_some,
    optionalStr?_eq_some, pure_eq_ok]
  constructor
  · rintro ⟨_, h₁, _, h₂, _, h₃, _, h₄, _, h₅, _, h₆, rfl⟩
    exact ⟨h₁, h₂, h₃, h₄, h₅, h₆⟩
  · rintro ⟨h₁, h₂, h₃, h₄, h₅, h₆⟩
    exact ⟨_, h₁, _, h₂, _, h₃, _, h₄, _, h₅, _, h₆, rfl⟩

theorem executionHandleDocument_eq_ok {value : Value (Number φ)} {handle : ExecutionHandle} :
    executionHandleDocument value = .ok handle ↔ handle.ReadFrom value := by
  simp only [executionHandleDocument, bind_eq_ok, modelFields_exact, literal_eq_ok, handleOf_eq_ok,
    validateIdentity_eq_ok, pure_eq_ok, exists_const]
  constructor
  · rintro ⟨d, ⟨rfl, hfields⟩, hsch, _, hd, hsound, rfl⟩
    exact ⟨d, rfl, hfields, hsch, hd, hsound⟩
  · rintro ⟨d, rfl, hfields, hsch, hd, hsound⟩
    exact ⟨d, ⟨rfl, hfields⟩, hsch, _, hd, hsound, rfl⟩

/-- The three values of a submission are those of its record after `_optional_str`. -/
def Trimmed (submission : Fields (Number φ)) (record : ExecutionRecord φ) : Prop :=
  optionalStr (submission.get "provider") = record.schedulerProvider ∧
    optionalStr (submission.get "scheduler_job_id") = record.schedulerNativeId ∧
    optionalStr (submission.get "scheduler_cluster") = record.cluster

theorem validatePath_eq_ok {value : Value (Number φ)} {name : String} {u : Unit} :
    validatePath value name = .ok u ↔
      value = .null ∨ ∃ text, value = .str text ∧ isNativeText 16384 false text = true := by
  cases value <;> simp [validatePath]

/-- The worker accepts a submission exactly if it proves the execution record up to white space at
its ends. -/
theorem validateSubmission_eq_ok {record : ExecutionRecord φ} {submission : Fields (Number φ)}
    {u : Unit} :
    validateSubmission record submission = .ok u ↔ record.Proven Trimmed submission := by
  unfold validateSubmission
  simp only [bind_eq_ok, ensure_eq_ok, exists_const, Bool.and_eq_true, Bool.or_eq_true,
    decide_eq_true_eq, Value.isStr_iff, Value.isBool_iff, Value.isNull_iff, forM_eq_ok,
    validatePath_eq_ok, Option.isNone_iff_eq_none, Option.isSome_iff_ne_none]
  constructor
  · rintro ⟨hmode, hsch, hexec, hprov, hnid, hcl, hsub, hsrc, hnone, hpaths⟩
    exact ⟨hmode, hsch, hexec, ⟨hprov, hnid, hcl⟩, hsub,
      fun hclaimed => hsrc.resolve_left hclaimed,
      fun hclaimed => hnone.resolve_left (not_not.2 hclaimed), hpaths⟩
  · rintro ⟨hmode, hsch, hexec, ⟨hprov, hnid, hcl⟩, hsub, hsrc, hnone, hpaths⟩
    exact ⟨hmode, hsch, hexec, hprov, hnid, hcl, hsub,
      or_iff_not_imp_left.2 hsrc, or_iff_not_imp_left.2 fun hclaimed => hnone (not_not.1 hclaimed),
      hpaths⟩

theorem validateNativeSubmission_eq_ok {record : ExecutionRecord φ} {u : Unit} :
    validateNativeSubmission record = .ok u ↔ record.Backed Trimmed := by
  unfold validateNativeSubmission ExecutionRecord.Backed
  cases Fields.get record.metadata "submission" with
  | null => simp
  | dict => exact validateSubmission_eq_ok
  | _ => simp

variable [PyFloat φ] {packages : List (PackageProgress φ)} {documents : NativeDocuments φ}
  {event : ProgressEvent φ} {executionId : String} {u : Unit} {value : Value (Number φ)}

/-- **What the worker accepts of a record.** -/
theorem executionRecordDocument_eq_ok [IsoFormat] {record : ExecutionRecord φ} :
    executionRecordDocument value = .ok record ↔ record.ReadFrom Trimmed value := by
  unfold executionRecordDocument validateRecord
  simp only [bind_eq_ok, modelFields_exact, literal_eq_ok, handleOf_eq_ok, field_eq_ok,
    Value.str?_eq_some, Value.bool?_eq_some, optionalInt?_eq_some, optionalStr?_eq_some,
    dict?_eq_some, validateIdentity_eq_ok, ensure_eq_ok, member_eq_ok withText_state,
    validateNativeTimestamp_eq_ok, validateOptionalText_eq_ok, validateNativeJson_eq_ok,
    validateNativeSubmission_eq_ok, pure_eq_ok, exists_const, decide_eq_true_eq]
  constructor
  · rintro ⟨d, ⟨rfl, hfields⟩, hsch, handle, hhandle, pipelineName, hname, _, hst,
      submitted, hsub, terminal, hterm, createdAt, hcreate, updatedAt, hupd,
      returnCode, hcode, error, herr, metadata, hmeta, hsound, rfl, state, rfl,
      ⟨hended, hflag, hcomp, hfail, hcreate', hupd', herr', hbdd, hbacked⟩, rfl⟩
    refine ⟨d, rfl, hfields, hsch,
      ⟨hhandle, hname, hst, hsub, hterm, hcreate, hupd, hcode, herr, hmeta⟩,
      ⟨hsound, rfl, Runner.lifecycle_iff.1 ⟨hended, hflag⟩, ?_, ?_, hcreate', hupd', herr',
        hbdd, hbacked⟩⟩
    · rintro rfl
      simpa using hcomp
    · rintro rfl
      simpa using hfail
  · rintro ⟨d, rfl, hfields, hsch, hd, hsound⟩
    have hlife := Runner.lifecycle_iff.2 hsound.lifecycle
    refine ⟨d, ⟨rfl, hfields⟩, hsch, record.handle, hd.handle, _, hd.pipelineName, _, hd.state, _,
      hd.submitted, _, hd.terminal, _, hd.createdAt, _, hd.updatedAt, _, hd.returnCode, _, hd.error, _,
      hd.metadata, hsound.handle, hsound.pipelineName, _, rfl,
      ⟨hlife.1, hlife.2, ?_, ?_, hsound.createdAt, hsound.updatedAt, hsound.error, hsound.metadata,
        hsound.backed⟩, rfl⟩
    · by_cases hcomp : record.state = .completed
      · simp [hsound.completed hcomp]
      · simp [hcomp]
    · by_cases hfail : record.state = .failed
      · simpa [hfail] using hsound.failed hfail
      · simp [hfail]

/-! ### The progress -/

theorem float_eq_ok {x : Number φ} {y : φ} : float x = .ok y ↔ x.toFloat = some y := by
  unfold float
  cases x.toFloat <;> simp

theorem optionalFloat_eq_ok {x : Option (Number φ)} {y : Option φ} :
    optionalFloat x = .ok y ↔ y = x.bind Number.toFloat ∧ ∀ n ∈ x, n.toFloat.isSome := by
  rcases x with _ | n
  · rw [optionalFloat, Except.ok.injEq]
    constructor
    · rintro rfl
      simp
    · rintro ⟨rfl, -⟩
      rfl
  · rw [optionalFloat, map_eq_ok]
    simp only [float_eq_ok, Option.bind_some, Option.mem_some_iff, forall_eq']
    constructor
    · rintro ⟨a, ha, rfl⟩
      simp [ha]
    · rintro ⟨rfl, hsome⟩
      obtain ⟨a, ha⟩ := Option.isSome_iff_exists.1 hsome
      exact ⟨a, ha, ha.symm⟩

/-- What `validate_progress` asks of the numbers of an event. -/
theorem validateProgress_eq_ok :
    validateProgress event = .ok u ↔
      isNonnegative event.observedAtEpoch ∧ (∀ x ∈ event.current, isNonnegative x) ∧
        (∀ x ∈ event.total, isTotalOf event.current x) ∧
        event.determinate = (event.current.isSome && event.total.isSome) ∧
        event.unit.all (isNativeText 256 false) = true ∧
        event.message.all (isNativeText 4096 false) = true ∧
        isBoundedJson 48000 event.metadata = true := by
  unfold validateProgress
  simp only [bind_eq_ok, ensure_eq_ok, float_eq_ok, optionalFloat_eq_ok,
    validateOptionalText_eq_ok, validateNativeJson_eq_ok, exists_const, beq_iff_eq,
    decide_eq_true_eq]
  constructor
  · rintro ⟨observed, hobs, hnn, _, ⟨rfl, hcur⟩, _, ⟨rfl, htot⟩, hcur', hpositive,
      hwithin, hdet, hrest⟩
    have hc : ∀ x ∈ event.current, ∃ y, x.toFloat = some y ∧
        decide (0 ≤ PyFloat.value y) = true := by
      intro x hx
      obtain ⟨y, hy⟩ := Option.isSome_iff_exists.1 (hcur x hx)
      rw [Option.mem_def.1 hx, Option.bind_some, hy] at hcur'
      exact ⟨y, hy, hcur'⟩
    have ht : ∀ x ∈ event.total, ∃ y, x.toFloat = some y ∧
        (decide (0 < PyFloat.value y) && (event.current.bind Number.toFloat).any fun x =>
          decide (PyFloat.value x ≤ PyFloat.value y)) = true := by
      intro x hx
      obtain ⟨y, hy⟩ := Option.isSome_iff_exists.1 (htot x hx)
      rw [Option.mem_def.1 hx, Option.bind_some, hy] at hpositive hwithin
      exact ⟨y, hy, Bool.and_eq_true_iff.2 ⟨hpositive, hwithin⟩⟩
    rw [Runner.isSome_toFloat hc, Runner.isSome_toFloat ht] at hdet
    exact ⟨⟨observed, hobs, hnn⟩, fun x hx => Runner.isNonnegative_iff.2 (hc x hx),
      fun x hx => Runner.isTotalOf_iff.2 (ht x hx), hdet, hrest⟩
  · rintro ⟨⟨observed, hobs, hnn⟩, hcur, htot, hdet, hrest⟩
    have hc := fun x hx => Runner.isNonnegative_iff.1 (hcur x hx)
    have ht := fun x hx => Runner.isTotalOf_iff.1 (htot x hx)
    refine ⟨observed, hobs, hnn, _, ⟨rfl, ?_⟩, _, ⟨rfl, ?_⟩, ?_, ?_, ?_, ?_, hrest⟩
    · intro x hx
      obtain ⟨y, hy, -⟩ := hc x hx
      exact Option.isSome_iff_exists.2 ⟨y, hy⟩
    · intro x hx
      obtain ⟨y, hy, -⟩ := ht x hx
      exact Option.isSome_iff_exists.2 ⟨y, hy⟩
    · rcases hx : event.current with _ | x
      · rfl
      · obtain ⟨y, hy, hy'⟩ := hc x hx
        rw [Option.bind_some, hy]
        exact hy'
    · rcases hx : event.total with _ | x
      · rfl
      · obtain ⟨y, hy, hy'⟩ := ht x hx
        rw [Option.bind_some, hy]
        exact (Bool.and_eq_true_iff.1 hy').1
    · rcases hx : event.total with _ | x
      · rfl
      · obtain ⟨y, hy, hy'⟩ := ht x hx
        rw [Option.bind_some, hy]
        exact (Bool.and_eq_true_iff.1 hy').2
    · rw [Runner.isSome_toFloat hc, Runner.isSome_toFloat ht, hdet]

/-- **What the worker accepts of an event.** -/
theorem progressEventDocument_eq_ok :
    progressEventDocument value = .ok event ↔ event.ReadFrom value := by
  unfold progressEventDocument
  simp only [bind_eq_ok, modelFields_eq_ok, literal_eq_ok, field_eq_ok, Value.str?_eq_some,
    Value.bool?_eq_some, Value.num?_eq_some, optionalNumber?_eq_some, optionalStr?_eq_some,
    int?_eq_some, dict?_eq_some, validateNativeText_eq_ok, ensure_eq_ok,
    member_eq_ok withText_progressState, validateProgress_eq_ok, pure_eq_ok, exists_const,
    decide_eq_true_eq]
  constructor
  · rintro ⟨d, ⟨rfl, hreq, honly⟩, hsch, packageName, hname, packageId, hid, executionId,
      hexec, label, hlab, stateText, hst, current, hcur, total, htot, unit, hunit,
      message, hmsg, sequence, hseq, observedAtEpoch, hepoch, determinate, hdet,
      metadata, hmeta, hname', hid', hexec', hlab', state, rfl, hnn,
      ⟨hepoch', hcur', htot', hdet', hunit', hmsg', hbdd⟩, rfl⟩
    rw [← Int.toNat_of_nonneg hnn] at hseq
    exact ⟨d, rfl, hreq, honly, hsch,
      ⟨hname, hid, hexec, hlab, hst, hcur, htot, hunit, hmsg, hseq, hepoch, hdet, hmeta, rfl⟩,
      ⟨hname', hid', hexec', hlab', hepoch', hcur', htot', hdet', hunit', hmsg', hbdd⟩⟩
  · rintro ⟨d, rfl, hreq, honly, hsch, hd, hsound⟩
    refine ⟨d, ⟨rfl, hreq, honly⟩, hsch, _, hd.packageName, _, hd.packageId, _, hd.executionId,
      _, hd.label, _, hd.state, _, hd.current, _, hd.total, _, hd.unit, _, hd.message, _, hd.sequence,
      _, hd.observedAtEpoch, _, hd.determinate, _, hd.metadata, hsound.packageName, hsound.packageId,
      hsound.executionId, hsound.label, _, rfl, Int.natCast_nonneg _,
      ⟨hsound.observed, hsound.current, hsound.total, hsound.determinate, hsound.unit, hsound.message,
        hsound.metadata⟩, ?_⟩
    rw [Int.toNat_natCast, ← hd.given]

theorem optionalEvent_eq_ok {latest : Option (ProgressEvent φ)} :
    optionalEvent value = .ok latest ↔
      match latest with
      | none => value = .null
      | some event => event.ReadFrom value := by
  unfold optionalEvent
  split
  · rcases latest with _ | event
    · simp
    · simp [ProgressEvent.ReadFrom]
  · rename_i hnull
    rw [map_eq_ok]
    rcases latest with _ | event
    · simpa using hnull
    · simp [progressEventDocument_eq_ok]

theorem natCast_beq_zero (n : Nat) : ((n : Int) == 0) = (n == 0) := by
  rw [Bool.eq_iff_iff]
  simp

/-- A package is read without its execution, whose identity is compared later. -/
theorem packageProgressDocument_eq_ok {package : PackageProgress φ} :
    packageProgressDocument value = .ok package ∧
        (∀ event ∈ package.latest, event.executionId = executionId) ↔
      package.ReadFrom executionId value := by
  unfold packageProgressDocument
  simp only [bind_eq_ok, modelFields_exact, field_eq_ok, Value.str?_eq_some, int?_eq_some,
    optionalEvent_eq_ok, validateNativeText_eq_ok, ensure_eq_ok, pure_eq_ok, exists_const,
    decide_eq_true_eq, Option.all_eq_true, Bool.and_eq_true]
  constructor
  · rintro ⟨⟨d, ⟨rfl, hfields⟩, packageId, hid, packageName, hname, eventCount, hcount, latest,
      hlat, hid', hname', hnn, hcnt, howns, rfl⟩, hexec⟩
    obtain ⟨n, rfl⟩ := Int.eq_ofNat_of_zero_le hnn
    refine ⟨d, rfl, hfields, ⟨hid, hname, hcount, hlat⟩, ⟨hid', hname', ?_, ?_⟩⟩
    · rw [natCast_beq_zero] at hcnt
      exact Runner.counted_iff.1 hcnt
    · intro event hev
      obtain ⟨hid, hname⟩ := howns event hev
      exact ⟨hid, hname, hexec event hev⟩
  · rintro ⟨d, rfl, hfields, hd, hsound⟩
    refine ⟨⟨d, ⟨rfl, hfields⟩, _, hd.packageId, _, hd.packageName, _, hd.eventCount, _, hd.latest,
      hsound.packageId, hsound.packageName, Int.natCast_nonneg _, ?_, ?_, rfl⟩, ?_⟩
    · rw [natCast_beq_zero]
      exact Runner.counted_iff.2 hsound.counted
    · intro event hev
      exact ⟨(hsound.owns event hev).packageId, (hsound.owns event hev).packageName⟩
    · intro event hev
      exact (hsound.owns event hev).executionId

theorem mapM_eq_ok {ε α β : Type} {f : α → Except ε β} {l : List α} {r : List β} :
    l.mapM f = .ok r ↔ List.Forall₂ (fun a b => f a = .ok b) l r := by
  induction l generalizing r with
  | nil =>
    rw [List.mapM_nil, pure_eq_ok, List.forall₂_nil_left_iff]
    exact eq_comm
  | cons a l ih =>
    simp only [List.mapM_cons, bind_eq_ok, ih, pure_eq_ok, List.forall₂_cons_left_iff]
    constructor
    · rintro ⟨b, hb, r, hr, rfl⟩
      exact ⟨b, r, hb, hr, rfl⟩
    · rintro ⟨b, r, hb, hr, rfl⟩
      exact ⟨b, hb, r, hr, rfl⟩

omit [PyFloat φ] in
theorem validatePackages_eq_ok {seen : List String} :
    validatePackages executionId seen packages = .ok u ↔
      (packageIds packages).Nodup ∧ (∀ id ∈ packageIds packages, id ∉ seen) ∧
        ∀ package ∈ packages, ∀ event ∈ package.latest, event.executionId = executionId := by
  induction packages generalizing seen with
  | nil => simp [validatePackages, packageIds]
  | cons package packages ih =>
    simp only [validatePackages, bind_eq_ok, ensure_eq_ok, ih, exists_const, Option.all_eq_true,
      decide_eq_true_eq, packageIds, List.map_cons, List.nodup_cons, List.forall_mem_cons]
    constructor
    · rintro ⟨hseen, hlat, hnd, hfresh, hall⟩
      refine ⟨⟨fun hmem => hfresh _ hmem List.mem_cons_self, hnd⟩,
        ⟨by simpa using hseen, fun id hid hmem => hfresh id hid (List.mem_cons_of_mem _ hmem)⟩,
        hlat, hall⟩
    · rintro ⟨⟨hhead, hnd⟩, ⟨hseen, hfresh⟩, hlat, hall⟩
      refine ⟨by simpa using hseen, hlat, hnd, ?_, hall⟩
      intro id hid hmem
      rcases List.mem_cons.1 hmem with rfl | hmem
      · exact hhead hid
      · exact hfresh id hid hmem

theorem packages_iff {values : List (Value (Number φ))} :
    (values.mapM packageProgressDocument = .ok packages ∧
        ∀ package ∈ packages, ∀ event ∈ package.latest, event.executionId = executionId) ↔
      List.Forall₂ (PackageProgress.ReadFrom executionId) values packages := by
  rw [mapM_eq_ok]
  constructor
  · rintro ⟨hread, hexec⟩
    induction hread with
    | nil => exact .nil
    | cons hread _ ih =>
      obtain ⟨hhead, htail⟩ := List.forall_mem_cons.1 hexec
      exact .cons (packageProgressDocument_eq_ok.1 ⟨hread, hhead⟩) (ih htail)
  · intro h
    induction h with
    | nil => exact ⟨.nil, by simp⟩
    | cons hread _ ih =>
      obtain ⟨hhead, hexec⟩ := packageProgressDocument_eq_ok.2 hread
      exact ⟨.cons hhead ih.1, List.forall_mem_cons.2 ⟨hexec, ih.2⟩⟩

/-- **What the worker accepts of a snapshot.** -/
theorem executionProgressDocument_eq_ok {progress : ExecutionProgress φ} :
    executionProgressDocument value = .ok progress ↔ progress.ReadFrom value := by
  unfold executionProgressDocument
  simp only [bind_eq_ok, modelFields_exact, literal_eq_ok, field_eq_ok, Value.str?_eq_some,
    Value.bool?_eq_some, list?_eq_some, validateNativeIdentity_eq_ok,
    member_eq_ok withText_state, ensure_eq_ok, validatePackages_eq_ok, pure_eq_ok, exists_const]
  constructor
  · rintro ⟨d, ⟨rfl, hfields⟩, hsch, executionId, hexec, pipelineId, hpipe, _,
      hst, terminal, hterm, items, hitems, packages, hpkgs, hexec', hpipe', state,
      rfl, hended, hflag, ⟨hnd, -, howns⟩, rfl⟩
    have hread := packages_iff.1 ⟨hpkgs, howns⟩
    exact ⟨d, rfl, hfields, hsch,
      ⟨hexec, hpipe, hst, hterm, items, hitems, hread⟩,
      ⟨hexec', hpipe', Runner.lifecycle_iff.1 ⟨hended, hflag⟩, hnd, Runner.sound_of_mem hread⟩⟩
  · rintro ⟨d, rfl, hfields, hsch, hd, hsound⟩
    obtain ⟨items, hitems, hread⟩ := hd.packages
    obtain ⟨hended, hflag⟩ := Runner.lifecycle_iff.2 hsound.lifecycle
    obtain ⟨hpkgs, howns⟩ := packages_iff.2 hread
    exact ⟨d, ⟨rfl, hfields⟩, hsch, _, hd.executionId, _, hd.pipelineId, _, hd.executionState, _,
      hd.terminal, items, hitems, _, hpkgs, hsound.executionId, hsound.pipelineId, _, rfl, hended,
      hflag, ⟨hsound.distinct, by simp, howns⟩, rfl⟩

/-- **The worker accepts the documents of the contract**, with the values of a submission
trimmed. -/
theorem nativeExecutionDocuments_eq_ok [IsoFormat] {d : Fields (Number φ)}
    (h : d.hasExactly documentKeys = true) :
    nativeExecutionDocuments (.dict d) = .ok documents ↔ documents.ReadFrom Trimmed d := by
  simp only [nativeExecutionDocuments, bind_eq_ok, modelFields_exact, Value.dict.injEq,
    executionHandleDocument_eq_ok, executionRecordDocument_eq_ok, executionProgressDocument_eq_ok,
    ensure_eq_ok, pure_eq_ok, exists_const, Bool.and_eq_true, decide_eq_true_eq]
  constructor
  · rintro ⟨_, ⟨rfl, -⟩, handle, hhandle, record, hrec, progress, hprog, hident, hlife, rfl⟩
    exact ⟨hhandle, hrec, hprog, Runner.bound_iff.1 ⟨hident, hlife⟩⟩
  · intro hread
    obtain ⟨hident, hlife⟩ := Runner.bound_iff.2 hread.bound
    exact ⟨d, ⟨rfl, h⟩, _, hread.handle, _, hread.record, _, hread.progress, hident, hlife, rfl⟩

/-- What the worker accepts was read from an object. -/
theorem readFrom_of_nativeExecutionDocuments [IsoFormat]
    (h : nativeExecutionDocuments value = .ok documents) : ∃ d, documents.ReadFrom Trimmed d := by
  have hfields := h
  simp only [nativeExecutionDocuments, bind_eq_ok, modelFields_exact] at hfields
  obtain ⟨d, ⟨rfl, hexact⟩, -⟩ := hfields
  exact ⟨d, (nativeExecutionDocuments_eq_ok hexact).1 h⟩

end ClioQueue.Jarvis.Worker
