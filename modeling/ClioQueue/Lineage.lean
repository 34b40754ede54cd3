/-
# Artifact lineage

The consumer side of `clio_relay/queue_artifact_lineage.py`: the immutable edges
from a job to the artifacts it uses, which a submission validates, numbers and
writes before its job record.
-/

import ClioQueue.JobRecords

namespace ClioQueue

open Durable Durable.Prog

/-- `MAX_ARTIFACT_USES_PER_JOB`. -/
def maxArtifactUsesPerJob : Nat := 1000

/-- `MAX_ARTIFACT_CONSUMERS`. -/
def maxArtifactConsumers : Nat := 10000

/-- `_is_sha256_digest`, on strings. -/
def isSha256Digest (value : String) : Bool :=
  value.toList.length == 64 &&
    value.toList.all fun c => ('0' ≤ c && c ≤ '9') || ('a' ≤ c && c ≤ 'f')

/-- `require_artifact_lineage_owner_match`. -/
def requireArtifactLineageOwnerMatch (consumer producer : RelayJob) : Except RelayError Unit := do
  let consumerIdentity ← ownerSessionIdentity consumer.metadata true
  let producerIdentity ← ownerSessionIdentity producer.metadata true
  if consumerIdentity.isNone && producerIdentity.isNone then pure ()
  else if (consumerIdentity.bind Prod.snd).isSome && (producerIdentity.bind Prod.snd).isSome &&
      consumerIdentity == producerIdentity then pure ()
  else
    .error (.conflict "used artifact owner session generation does not match the consuming job")

section

variable [Platform] [Entropy]

/-- `write_immutable_use_record`, to the file that `found` was read from. -/
def writeImmutableUseRecord (found : Option UsedArtifactRef) (record : UsedArtifactRef)
    (write : Op Unit) : Op Unit :=
  match found with
  | some existing =>
    require (existing == record) (.conflict "immutable used-artifact edge changed")
  | none => do
    require (Platform.usedArtifactFits record) (.conflict "record exceeds its byte limit")
    write

/-- `_read_artifact_user_order_head`. -/
def readArtifactUserOrderHead (artifactId : DurableRecordId) : Op Nat := do
  let head ← read (.artifactUserHead artifactId)
  pure (head.getD 0)

/-- `_initialize_artifact_user_order_unlocked`. -/
def initializeArtifactUserOrder (artifactId : DurableRecordId) : Op Unit := do
  let found ← present (.artifactUserHead artifactId)
  if found then pure () else put (.artifactUserHead artifactId) 0

/-- Write the order mapping of an edge. -/
def writeConsumerMapping (record : UsedArtifactRef) : Op Unit := do
  let found ← read (.artifactUserByConsumer record.artifactId record.consumerJobId)
  writeImmutableUseRecord found record
    (put (.artifactUserByConsumer record.artifactId record.consumerJobId) record)

/-- `_reserve_artifact_user_order_unlocked`. -/
def reserveArtifactUserOrder (artifact : ArtifactRef) (use : ArtifactUse) (sha256 : String)
    (job : RelayJob) : Op UsedArtifactRef := do
  initializeArtifactUserOrder artifact.artifactId
  let existing ← read (.artifactUserByConsumer artifact.artifactId job.jobId)
  match existing with
  | some record => pure record
  | none => do
    let latest ← readArtifactUserOrderHead artifact.artifactId
    require (decide (latest < 2 ^ 63 - 1))
      (.conflict s!"artifact-user sequence exhausted: {artifact.artifactId}")
    let record : UsedArtifactRef :=
      { artifactId := artifact.artifactId, consumerJobId := job.jobId,
        producerJobId := artifact.jobId, sequence := latest + 1, sha256,
        provenance := use.provenance, createdAt := job.createdAt }
    put (.artifactUserHead artifact.artifactId) (latest + 1)
    writeConsumerMapping record
    pure record

/-- The checks on an edge that has been written before. -/
def checkUseRecord (artifact : ArtifactRef) (use : ArtifactUse) (sha256 : String)
    (job : RelayJob) (record : UsedArtifactRef) (others : List UsedArtifactRef) (head : Nat) :
    Op Unit := do
  require (others.all (· == record) && record.artifactId == artifact.artifactId &&
      record.consumerJobId == job.jobId && record.producerJobId == artifact.jobId &&
      record.sha256 == sha256 && record.provenance == use.provenance)
    (.conflict s!"immutable used-artifact edge identity changed: {artifact.artifactId}")
  require (decide (record.sequence ≤ head))
    (.conflict s!"artifact-user order head is behind its edge: {artifact.artifactId}")
  let entry ← read (.artifactUserEntry artifact.artifactId record.sequence)
  require (entry.all (· == record))
    (.conflict s!"artifact-user order entry changed: {artifact.artifactId}")

/-- The consumers of an artifact, in `artifact_users` or the order mappings. -/
def consumersListed (artifactId : DurableRecordId) (mappings : Bool) (p : Path) (_ : Content p) :
    Option DurableRecordId :=
  match p with
  | .artifactUser artifact consumer =>
    if artifact = artifactId ∧ mappings = false then some consumer else none
  | .artifactUserByConsumer artifact consumer =>
    if artifact = artifactId ∧ mappings = true then some consumer else none
  | _ => none

/-- One use of `_artifact_use_records_unlocked`, of an artifact that has been found. -/
def artifactUseRecord (job : RelayJob) (allocateSequences : Bool) (use : ArtifactUse)
    (artifact : ArtifactRef) (sha256 : String) : Op (List UsedArtifactRef) := do
  let forward ← read (.usedArtifact job.jobId artifact.artifactId)
  let reverse ← read (.artifactUser artifact.artifactId job.jobId)
  let head ← readArtifactUserOrderHead artifact.artifactId
  let mapping ← read (.artifactUserByConsumer artifact.artifactId job.jobId)
  let reversed ← boundedListing (consumersListed artifact.artifactId false) maxArtifactConsumers
    s!"consumers of artifact {artifact.artifactId}"
  let mapped ← boundedListing (consumersListed artifact.artifactId true) maxArtifactConsumers
    s!"consumer order mappings for artifact {artifact.artifactId}"
  match forward.toList ++ reverse.toList ++ mapping.toList with
  | record :: others => do
    checkUseRecord artifact use sha256 job record others head
    pure [record]
  | [] => do
    require (decide (max reversed.length mapped.length < maxArtifactConsumers))
      (.conflict s!"artifact consumer capacity is exhausted: {artifact.artifactId}")
    if allocateSequences then do
      let record ← reserveArtifactUserOrder artifact use sha256 job
      pure [record]
    else pure []

/-- One use of `_artifact_use_records_unlocked`. -/
def artifactUse (job : RelayJob) (allocateSequences : Bool) (use : ArtifactUse) :
    Op (List UsedArtifactRef) := do
  let found ← read (.artifact use.artifactId)
  match found with
  | none => raise (.conflict s!"used artifact not found: {use.artifactId}")
  | some artifact => do
    require (artifact.artifactId == use.artifactId)
      (.conflict s!"canonical artifact identity mismatch: {use.artifactId}")
    match artifact.sha256 with
    | none =>
      raise (.conflict s!"used artifact is not content-addressed: {use.artifactId}")
    | some sha256 => do
      require (isSha256Digest sha256)
        (.conflict s!"used artifact is not content-addressed: {use.artifactId}")
      require (sha256 == use.sha256)
        (.conflict s!"used artifact digest mismatch: {use.artifactId}")
      let producer ← readJob artifact.jobId
      match producer with
      | none =>
        raise (.conflict s!"used artifact producer is not retained: {use.artifactId}")
      | some producer => do
        ofExcept (requireArtifactLineageOwnerMatch job producer)
        artifactUseRecord job allocateSequences use artifact sha256

/-- The edges of a job. -/
def usedArtifactsListed (jobId : DurableRecordId) (p : Path) (_ : Content p) :
    Option DurableRecordId :=
  match p with
  | .usedArtifact job artifactId => if job = jobId then some artifactId else none
  | _ => none

/-- `_artifact_use_records_unlocked`. -/
def artifactUseRecords (job : RelayJob) (allocateSequences : Bool) : Op (List UsedArtifactRef) := do
  let existing ← boundedListing (usedArtifactsListed job.jobId) maxArtifactUsesPerJob
    s!"used artifacts for job {job.jobId}"
  require (existing.all fun artifactId =>
      job.usedArtifactRefs.any fun use => use.artifactId == artifactId)
    (.conflict s!"used-artifact edge set changed for job {job.jobId}")
  gather (artifactUse job allocateSequences) job.usedArtifactRefs

/-- The four files of one edge. -/
def ensureArtifactUseIndex (jobId : DurableRecordId) (record : UsedArtifactRef) : Op Unit := do
  writeConsumerMapping record
  let forward ← read (.usedArtifact jobId record.artifactId)
  writeImmutableUseRecord forward record (put (.usedArtifact jobId record.artifactId) record)
  let reverse ← read (.artifactUser record.artifactId record.consumerJobId)
  writeImmutableUseRecord reverse record
    (put (.artifactUser record.artifactId record.consumerJobId) record)
  let entry ← read (.artifactUserEntry record.artifactId record.sequence)
  writeImmutableUseRecord entry record
    (put (.artifactUserEntry record.artifactId record.sequence) record)

/-- `_ensure_artifact_use_indexes_unlocked`. -/
def ensureArtifactUseIndexes (job : RelayJob) : Op Unit := do
  let records ← artifactUseRecords job true
  each (ensureArtifactUseIndex job.jobId) records

end

end ClioQueue
