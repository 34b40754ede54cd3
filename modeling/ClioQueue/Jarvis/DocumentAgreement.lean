/-
# The runner and the worker on the same documents

Both accept the documents of the producer's contract, and they differ in one point: the runner
compares the provider, the job and the cluster of a scheduler submission with the record's as
they stand, the worker after `_optional_str` has trimmed them and turned a blank string, or what
is no string, into `None`.  So the two agree on a document exactly when the two comparisons
give the same answer for its submission (`documents_agree_iff`), and a submission with the
provider `"slurm "` is one they do not agree on.
-/

import ClioQueue.Jarvis.WorkerAcceptance

namespace ClioQueue.Jarvis

open Durable Wire

variable {φ : Type}

/-- The two comparisons of a record's submission, if it has one, give the same answer. -/
def ExecutionRecord.SameComparison (record : ExecutionRecord φ) : Prop :=
  ∀ submission, Fields.get record.metadata "submission" = .dict submission →
    (Runner.Repeated submission record ↔ Worker.Trimmed submission record)

/-- Any submission matches: the contract without the comparison. -/
def anyMatch (_submission : Fields (Number φ)) (_record : ExecutionRecord φ) : Prop := True

theorem text_injective {mode mode' : ExecutionMode} (h : mode.text = mode'.text) : mode = mode' := by
  have hmode := withText_mode mode
  rw [h, withText_mode mode'] at hmode
  exact (Option.some.inj hmode).symm

theorem stateText_injective {state state' : ExecutionState} (h : state.text = state'.text) :
    state = state' := by
  have hst := withText_state state
  rw [h, withText_state state'] at hst
  exact (Option.some.inj hst).symm

@[simp]
theorem optionalText_inj {ν : Type} {text text' : Option String} :
    (optionalText text : Value ν) = optionalText text' ↔ text = text' := by
  cases text <;> cases text' <;> simp [optionalText]

@[simp]
theorem optionalInt_inj {n n' : Option Int} :
    (optionalInt n : Value (Number φ)) = optionalInt n' ↔ n = n' := by
  cases n <;> cases n' <;> simp [optionalInt]

theorem ExecutionHandle.FieldsOf.unique {d : Fields (Number φ)} {handle handle' : ExecutionHandle}
    (h : handle.FieldsOf d) (h' : handle'.FieldsOf d) : handle = handle' := by
  have hexec := h.executionId.symm.trans h'.executionId
  have hpipe := h.pipelineId.symm.trans h'.pipelineId
  have hmode := h.mode.symm.trans h'.mode
  have hprov := h.provider.symm.trans h'.provider
  have hnid := h.nativeId.symm.trans h'.nativeId
  have hcl := h.cluster.symm.trans h'.cluster
  cases handle
  cases handle'
  simp only [Value.str.injEq, optionalText_inj] at *
  simp [hexec, hpipe, text_injective hmode, hprov, hnid, hcl]

/-- A document has the fields of at most one execution record. -/
theorem ExecutionRecord.FieldsOf.unique {d : Fields (Number φ)}
    {record record' : ExecutionRecord φ} (h : record.FieldsOf d) (h' : record'.FieldsOf d) :
    record = record' := by
  have hhandle := h.handle.unique h'.handle
  have hname := h.pipelineName.symm.trans h'.pipelineName
  have hst := h.state.symm.trans h'.state
  have hsub := h.submitted.symm.trans h'.submitted
  have hterm := h.terminal.symm.trans h'.terminal
  have hcreate := h.createdAt.symm.trans h'.createdAt
  have hupd := h.updatedAt.symm.trans h'.updatedAt
  have hcode := h.returnCode.symm.trans h'.returnCode
  have herr := h.error.symm.trans h'.error
  have hmeta := h.metadata.symm.trans h'.metadata
  cases record
  cases record'
  simp only [ExecutionRecord.handle, ExecutionHandle.mk.injEq, Value.str.injEq, Value.bool.injEq,
    Value.dict.injEq, optionalText_inj, optionalInt_inj] at *
  simp [hhandle, hname, stateText_injective hst, hsub, hterm, hcreate, hupd, hcode, herr, hmeta]

section

variable {agrees agrees' : Fields (Number φ) → ExecutionRecord φ → Prop}

theorem ExecutionRecord.Backed.imp {record : ExecutionRecord φ} (h : record.Backed agrees)
    (himp : ∀ submission, Fields.get record.metadata "submission" = .dict submission →
      agrees submission record → agrees' submission record) : record.Backed agrees' := by
  unfold ExecutionRecord.Backed at h ⊢
  cases hsubm : Fields.get record.metadata "submission" with
  | dict submission =>
    rw [hsubm] at h
    exact { h with agrees := himp submission hsubm h.agrees }
  | null => simpa [hsubm] using h
  | _ => simp [hsubm] at h

variable [PyFloat φ] [IsoFormat] {d : Fields (Number φ)} {documents : NativeDocuments φ}

theorem NativeDocuments.ReadFrom.imp (h : documents.ReadFrom agrees d)
    (himp : ∀ submission, Fields.get documents.executionRecord.metadata "submission" = .dict submission → agrees submission documents.executionRecord → agrees' submission documents.executionRecord) :
    documents.ReadFrom agrees' d := by
  obtain ⟨hhandle, ⟨fields, hv, hfields, hsch, hread, hsound⟩, hprog, hbd⟩ := h
  exact ⟨hhandle, ⟨fields, hv, hfields, hsch, hread,
    { hsound with backed := hsound.backed.imp himp }⟩, hprog, hbd⟩

/-- Whatever the comparisons, the record read is the same. -/
theorem NativeDocuments.ReadFrom.record_unique {documents' : NativeDocuments φ}
    (h : documents.ReadFrom agrees d) (h' : documents'.ReadFrom agrees' d) :
    documents.executionRecord = documents'.executionRecord := by
  obtain ⟨_, hv, -, -, hread, -⟩ := h.record
  obtain ⟨_, hv', -, -, hread', -⟩ := h'.record
  rw [hv] at hv'
  cases hv'
  exact hread.unique hread'

/-- A submission that one of them compared. -/
theorem NativeDocuments.ReadFrom.matches (h : documents.ReadFrom agrees d)
    {submission : Fields (Number φ)}
    (hsubm : Fields.get documents.executionRecord.metadata "submission" = .dict submission) :
    agrees submission documents.executionRecord := by
  obtain ⟨-, -, -, -, -, hsound⟩ := h.record
  have hbacked := hsound.backed
  unfold ExecutionRecord.Backed at hbacked
  rw [hsubm] at hbacked
  exact hbacked.agrees

/-- The runner accepts an object. -/
def runnerAccepts (d : Fields (Number φ)) : Bool := (Runner.validatedNativeExecutionDocuments d).isOk

/-- The worker accepts an object. -/
def workerAccepts (d : Fields (Number φ)) : Bool := (Worker.nativeExecutionDocuments (.dict d)).isOk

theorem runnerAccepts_iff (h : d.hasExactly documentKeys = true) :
    runnerAccepts d = true ↔
      ∃ documents : NativeDocuments φ, documents.ReadFrom Runner.Repeated d := by
  have hall : d.hasAll documentKeys = true := (Bool.and_eq_true_iff.1 h).1
  rw [runnerAccepts, isOk_iff]
  simp only [Runner.validatedNativeExecutionDocuments_eq_ok hall]
  constructor
  · rintro ⟨_, documents, rfl, hread⟩
    exact ⟨documents, hread⟩
  · rintro ⟨documents, hread⟩
    exact ⟨_, documents, rfl, hread⟩

theorem workerAccepts_iff (h : d.hasExactly documentKeys = true) :
    workerAccepts d = true ↔
      ∃ documents : NativeDocuments φ, documents.ReadFrom Worker.Trimmed d := by
  rw [workerAccepts, isOk_iff]
  simp only [Worker.nativeExecutionDocuments_eq_ok h]

/-- **When the runner and the worker agree on an object**: when the documents it holds break the
rest of the contract, or the two comparisons of the submission give the same answer. -/
theorem documents_agree_iff (d : Fields (Number φ)) (h : d.hasExactly documentKeys = true) :
    (runnerAccepts d = true ↔ workerAccepts d = true) ↔
      ∀ documents : NativeDocuments φ, documents.ReadFrom anyMatch d →
        documents.executionRecord.SameComparison := by
  rw [runnerAccepts_iff h, workerAccepts_iff h]
  constructor
  · intro hagree documents hread submission hsubm
    constructor
    · intro hrepeated
      have hrunner : documents.ReadFrom Runner.Repeated d := by
        refine hread.imp fun submission' hsubm' _ => ?_
        rw [hsubm] at hsubm'
        cases hsubm'
        exact hrepeated
      obtain ⟨documents', hworker⟩ := hagree.1 ⟨documents, hrunner⟩
      have hrec := hread.record_unique hworker
      rw [hrec] at hsubm ⊢
      exact hworker.matches hsubm
    · intro htrimmed
      have hworker : documents.ReadFrom Worker.Trimmed d := by
        refine hread.imp fun submission' hsubm' _ => ?_
        rw [hsubm] at hsubm'
        cases hsubm'
        exact htrimmed
      obtain ⟨documents', hrunner⟩ := hagree.2 ⟨documents, hworker⟩
      have hrec := hread.record_unique hrunner
      rw [hrec] at hsubm ⊢
      exact hrunner.matches hsubm
  · intro hsame
    constructor
    · rintro ⟨documents, hread⟩
      have hcompare := hsame documents (hread.imp fun _ _ _ => trivial)
      exact ⟨documents, hread.imp fun submission hsubm => (hcompare submission hsubm).1⟩
    · rintro ⟨documents, hread⟩
      have hcompare := hsame documents (hread.imp fun _ _ _ => trivial)
      exact ⟨documents, hread.imp fun submission hsubm => (hcompare submission hsubm).2⟩

end

/-! ### A submission they compare differently -/

/-- The noon of the first of July 2026, in UTC. -/
@[reducible]
def sampleIsoFormat : IsoFormat where
  fromisoformat text :=
    if text = "2026-07-01T12:00:00+00:00" then some ⟨1782907200000000, some 0⟩ else none

/-- The identity of an execution under SLURM that has no job yet. -/
def sampleIdentity : Fields (Number Int) :=
  [("execution_id", .str "run-1"), ("pipeline_id", .str "pipe"), ("mode", .str "scheduler"),
    ("scheduler_provider", .str "slurm"), ("scheduler_native_id", .null), ("cluster", .null)]

/-- Its documents, with a submission that names a provider. -/
def sampleDocuments (provider : String) : Fields (Number Int) :=
  [("execution_handle", .dict (("schema_version", .str handleSchema) :: sampleIdentity)),
    ("execution_record", .dict (("schema_version", .str recordSchema) :: sampleIdentity ++
      [("pipeline_name", .str "pipe"), ("state", .str "submitting"), ("submitted", .bool false),
        ("terminal", .bool false), ("created_at", .str "2026-07-01T12:00:00Z"),
        ("updated_at", .str "2026-07-01T12:00:00Z"), ("return_code", .null), ("error", .null),
        ("metadata", .dict [("submission", .dict
          [("schema_version", .str submissionSchema), ("execution_id", .str "run-1"),
            ("provider", .str provider), ("submitted", .bool false)])])])),
    ("progress", .dict
      [("schema_version", .str progressSchema), ("execution_id", .str "run-1"),
        ("pipeline_id", .str "pipe"), ("execution_state", .str "submitting"),
        ("terminal", .bool false), ("packages", .list [])])]

/-- **The runner and the worker do not agree**: the provider of a submission with a space after
it is refused by the one and accepted by the other. -/
theorem padded_provider_disagrees :
    ¬ ∀ d : Fields (Number Int), d.hasExactly documentKeys = true →
      (@runnerAccepts Int sampleFloat sampleIsoFormat d = true ↔
        @workerAccepts Int sampleFloat sampleIsoFormat d = true) := by
  have hsample : (sampleDocuments "slurm ").hasExactly documentKeys = true ∧
      @runnerAccepts Int sampleFloat sampleIsoFormat (sampleDocuments "slurm ") = false ∧
      @workerAccepts Int sampleFloat sampleIsoFormat (sampleDocuments "slurm ") = true := by
    decide +kernel
  intro hagree
  have hrunner := (hagree _ hsample.1).2 hsample.2.2
  rw [hsample.2.1] at hrunner
  cases hrunner

/-- Without the space they agree. -/
theorem documents_agree_on_sample :
    (@runnerAccepts Int sampleFloat sampleIsoFormat (sampleDocuments "slurm") = true ↔
        @workerAccepts Int sampleFloat sampleIsoFormat (sampleDocuments "slurm") = true) ↔
      ∀ documents : NativeDocuments Int,
        @NativeDocuments.ReadFrom Int sampleFloat sampleIsoFormat anyMatch (sampleDocuments "slurm")
          documents → documents.executionRecord.SameComparison :=
  @documents_agree_iff Int sampleFloat sampleIsoFormat (sampleDocuments "slurm") (by decide +kernel)

example : @runnerAccepts Int sampleFloat sampleIsoFormat (sampleDocuments "slurm") = true := by
  decide +kernel

end ClioQueue.Jarvis
