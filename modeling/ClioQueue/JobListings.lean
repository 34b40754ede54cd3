/-
# Artifacts, progress and the listings of a job

`append_artifact` of `clio_relay/queue_artifacts.py` and `append_progress` of
`clio_relay/queue_progress.py`: a canonical record, a copy by job, a copy in the
order of the job and a count, written in turn without an intent.  The listings read
the copies by job (`list_tasks`, `list_artifacts`, `list_progress`); the pages read
the order up to the count (`_read_ordered_job_page` of
`clio_relay/queue_order_index.py`).

An append is three stages: the canonical record is saved, the record is indexed, and
an event announces it.
-/

import ClioQueue.GlobalPages
import ClioQueue.Tasks

namespace ClioQueue

open Durable Durable.Prog

section

variable [Platform] [Entropy]

/-! ### Artifacts -/

/-- `recorded_sequence == sequence` of the source, on JSON values: `1.0` and `true` equal `1`. -/
def Json.equalsNat (value : Json) (n : Nat) : Bool :=
  match value with
  | .num m fraction => m == n && (fraction == "" || fraction == ".0")
  | .bool b => b.toNat == n
  | _ => false

/-- `artifact_with_sequence`. -/
def artifactWithSequence (artifact : ArtifactRef) (sequence : Nat) : Except RelayError ArtifactRef :=
  match (artifact.metadata.get "clio.provenance.v1").obj? with
  | none => .ok { artifact with sequence := some sequence }
  | some provenance =>
    if Dict.get provenance "sequence" ≠ .null ∧
        !(Dict.get provenance "sequence").equalsNat sequence then
      .error (.conflict "CLIO artifact provenance sequence does not match relay order")
    else
      .ok { artifact with
        sequence := some sequence
        metadata := artifact.metadata.set "clio.provenance.v1"
          (.obj (Dict.set provenance "sequence" (.num sequence ""))) }

/-- The first stage of `append_artifact`: the canonical record. -/
def saveArtifact (artifact : ArtifactRef) : Op (ArtifactRef × Nat) := do
  let _job ← getJob artifact.jobId
  let sequence ← nextJobRecordSequence artifact.jobId JobIndex.artifactCount
  let saved ← ofExcept (artifactWithSequence artifact sequence)
  putWithin (Platform.artifactFits saved) (.artifact saved.artifactId) saved
  pure (saved, sequence)

/-- One gateway of `_link_gateways_for_artifact_unlocked`. -/
def linkArtifactGateway (artifact : ArtifactRef) (gateway : GatewaySession) : Op Unit :=
  if gateway.state = .closed then pure ()
  else linkActiveGatewayJob gateway artifact.jobId.value .artifact artifact.artifactId.value none

/-- `_link_gateways_for_artifact_unlocked`. -/
def linkGatewaysForArtifact (artifact : ArtifactRef) : Op Unit := do
  let gateways ← boundedListing (gatewaysListed .artifact artifact.artifactId.value)
    maxGatewayIndexRecords s!"artifact gateway reverse index {artifact.artifactId}"
  each (linkArtifactGateway artifact) gateways

/-- The second stage of `append_artifact`: the copies, the backlinks and the count. -/
def indexArtifact (saved : ArtifactRef) (sequence : Nat) : Op Unit := do
  putWithin (Platform.artifactFits saved) (.artifactByJob saved.jobId saved.artifactId) saved
  initializeArtifactUserOrder saved.artifactId
  putWithin (Platform.artifactFits saved) (.artifactOrder saved.jobId sequence) saved
  linkGatewaysForArtifact saved
  updateJobIndex saved.jobId fun index => { index with artifactCount := index.artifactCount + 1 }

/-- The last stage of `append_artifact`: the event. -/
def announceArtifact (artifact saved : ArtifactRef) : Op ArtifactRef := do
  let _event ← appendEventUnlocked artifact.jobId "artifact.created"
    s!"Artifact indexed: {artifact.uri}"
    [("artifact_id", .str artifact.artifactId.value), ("uri", .str artifact.uri)]
  pure saved

/-- `append_artifact`. -/
def appendArtifact (artifact : ArtifactRef) : Op ArtifactRef := do
  let saved ← saveArtifact artifact
  indexArtifact saved.1 saved.2
  announceArtifact artifact saved.1

/-! ### Progress -/

/-- The first stage of `append_progress`: the canonical record. -/
def saveProgress (progress : ProgressRecord) : Op (ProgressRecord × Nat) := do
  let _job ← getJob progress.jobId
  let sequence ← nextJobRecordSequence progress.jobId JobIndex.progressCount
  let saved := { progress with sequence := some sequence }
  putWithin (Platform.progressFits saved) (.progress saved.progressId) saved
  pure (saved, sequence)

/-- The second stage of `append_progress`: the copies and the count. -/
def indexProgress (saved : ProgressRecord) (sequence : Nat) : Op Unit := do
  putWithin (Platform.progressFits saved) (.progressByJob saved.jobId saved.progressId) saved
  putWithin (Platform.progressFits saved) (.progressOrder saved.jobId sequence) saved
  updateJobIndex saved.jobId fun index =>
    { index with
      progressCount := index.progressCount + 1
      latestProgressId := some saved.progressId }

/-- The message of a progress event: an empty one counts as none. -/
def progressMessage (progress : ProgressRecord) : String :=
  match progress.message with
  | some message => if message = "" then s!"Progress updated: {progress.label}" else message
  | none => s!"Progress updated: {progress.label}"

/-- The last stage of `append_progress`: the event. -/
def announceProgress (progress saved : ProgressRecord) : Op ProgressRecord := do
  let optional : Option String → Json := fun text => (text.map Json.str).getD .null
  let _event ← appendEventUnlocked progress.jobId "progress.updated" (progressMessage progress)
    [("progress_id", .str progress.progressId.value), ("label", .str progress.label),
      ("current", progress.current), ("total", progress.total), ("unit", optional progress.unit),
      ("message", optional progress.message),
      ("source_event_seq", (progress.sourceEventSeq.map fun seq => Json.num seq "").getD .null)]
  pure saved

/-- `append_progress`. -/
def appendProgress (progress : ProgressRecord) : Op ProgressRecord := do
  let saved ← saveProgress progress
  indexProgress saved.1 saved.2
  announceProgress progress saved.1

/-! ### Listings -/

/-- `read_many`: a whole family of records, each named as its file is. -/
def readMany {α : Type} (f : (p : Path) → Content p → Option (DurableRecordId × α))
    (identity : α → DurableRecordId) : Op (List α) := do
  let found ← listing f
  require (decide (found.length ≤ maxBoundedScanRecords))
    (.conflict s!"canonical record family exceeds the bounded read limit of {maxBoundedScanRecords}")
  require (found.all fun entry => identity entry.2 == entry.1)
    (.conflict "canonical filename/content identity mismatch")
  pure (found.map Prod.snd)

/-- The tasks of a job, or all of them. -/
def tasksListed (jobId : Option DurableRecordId) (p : Path) (c : Content p) :
    Option (DurableRecordId × RelayTask) :=
  match p, c, jobId with
  | .taskByJob job taskId, task, some jobId => if job = jobId then some (taskId, task) else none
  | .task taskId, task, none => some (taskId, task)
  | _, _, _ => none

/-- The artifacts of a job, or all of them. -/
def artifactsListed (jobId : Option DurableRecordId) (p : Path) (c : Content p) :
    Option (DurableRecordId × ArtifactRef) :=
  match p, c, jobId with
  | .artifactByJob job artifactId, artifact, some jobId =>
    if job = jobId then some (artifactId, artifact) else none
  | .artifact artifactId, artifact, none => some (artifactId, artifact)
  | _, _, _ => none

/-- The progress records of a job, or all of them. -/
def progressListed (jobId : Option DurableRecordId) (p : Path) (c : Content p) :
    Option (DurableRecordId × ProgressRecord) :=
  match p, c, jobId with
  | .progressByJob job progressId, progress, some jobId =>
    if job = jobId then some (progressId, progress) else none
  | .progress progressId, progress, none => some (progressId, progress)
  | _, _, _ => none

/-- A listing by job: the copies of an indexed job, or the canonical records that name it. -/
def readJobRecords {α : Type}
    (f : Option DurableRecordId → (p : Path) → Content p → Option (DurableRecordId × α))
    (identity owner : α → DurableRecordId) (jobId : DurableRecordId) : Op (List α) := do
  let indexed ← present (.jobIndex jobId)
  if indexed then readMany (f (some jobId)) identity
  else do
    let found ← readMany (f none) identity
    pure (found.filter fun record => owner record == jobId)

/-- `list_tasks` of a job. -/
def listTasks (jobId : DurableRecordId) : Op (List RelayTask) := do
  recoverPendingTransitions
  let tasks ← readJobRecords tasksListed RelayTask.taskId RelayTask.jobId jobId
  pure (tasks.insertionSort fun a b => a.createdAt ≤ b.createdAt)

/-- `list_artifacts`. -/
def listArtifacts (jobId : DurableRecordId) : Op (List ArtifactRef) :=
  readJobRecords artifactsListed ArtifactRef.artifactId ArtifactRef.jobId jobId

/-- `list_progress`. -/
def listProgress (jobId : DurableRecordId) : Op (List ProgressRecord) := do
  let progress ← readJobRecords progressListed ProgressRecord.progressId ProgressRecord.jobId jobId
  pure (progress.insertionSort fun a b => a.createdAt ≤ b.createdAt)

/-! ### Pages -/

/-- The loop of `_read_ordered_job_page`. -/
def readOrderedJobRecords {α : Type} (order : Nat → Op (Option α)) (family : String)
    (jobId : DurableRecordId) : List Nat → Op (List α)
  | [] => pure []
  | sequence :: sequences => do
    let found ← order sequence
    match found with
    | none =>
      raise (.conflict s!"{family} order index is missing sequence {sequence}: {jobId}")
    | some record => do
      let rest ← readOrderedJobRecords order family jobId sequences
      pure (record :: rest)

/-- `_read_ordered_job_page`. -/
def readOrderedJobPage {α : Type} (order : Nat → Op (Option α)) (family : String)
    (count : JobIndex → Nat) (jobId : DurableRecordId) (cursor limit : Int) : Op (Page α) := do
  let cursor ← ofExcept (validateRecordCursor cursor)
  let limit ← ofExcept (validateResponsePageLimit limit)
  requireIndexMigrationComplete
  let index ← read (.jobIndex jobId)
  match index with
  | none => raise (.notFound s!"job not found: {jobId}")
  | some index =>
    let total := count index
    if total < cursor then pure ⟨[], none, total⟩
    else do
      let stop := min (total + 1) (cursor + limit)
      let records ← readOrderedJobRecords order family jobId (List.range' cursor (stop - cursor))
      pure ⟨records, if stop ≤ total then some stop else none, total⟩

/-- `list_tasks_page`. -/
def listTasksPage (jobId : DurableRecordId) (cursor limit : Int) : Op (Page RelayTask) := do
  recoverPendingTransitions
  readOrderedJobPage (fun sequence => read (.taskOrder jobId sequence)) "task" JobIndex.taskCount
    jobId cursor limit

/-- `list_artifacts_page`. -/
def listArtifactsPage (jobId : DurableRecordId) (cursor limit : Int) : Op (Page ArtifactRef) :=
  readOrderedJobPage (fun sequence => read (.artifactOrder jobId sequence)) "artifact"
    JobIndex.artifactCount jobId cursor limit

/-- `list_progress_page`. -/
def listProgressPage (jobId : DurableRecordId) (cursor limit : Int) : Op (Page ProgressRecord) :=
  readOrderedJobPage (fun sequence => read (.progressOrder jobId sequence)) "progress"
    JobIndex.progressCount jobId cursor limit

end

end ClioQueue
