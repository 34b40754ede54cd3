/-
# The owner-session lifecycle

The operations that move an owner session from one generation to the next:
`prepare_owner_session_start`, `reopen_owner_session`,
`set_owner_session_closing`, `set_owner_session_closed` and
`mirror_owner_session_generation_open`.
-/

import ClioQueue.OwnerSessions

namespace ClioQueue

open Durable Durable.Prog

variable [Entropy]

/-- An owner-session id must not be empty. -/
def requireOwnerSessionId (ownerSessionId : String) : Op Unit :=
  require (ownerSessionId != "") (.value "owner_session_id must not be empty")

/-- Whether a closure is verified: present and without residual resources. -/
def safelyClosed (closure : Option OwnerSessionClosure) : Bool :=
  closure.any fun closure => closure.residualResourceIds.isEmpty

/-- `prepare_owner_session_start`. -/
def prepareOwnerSessionStart (ownerSessionId : String) (recordedGenerationId : Option String)
    (candidateGenerationId : String) : Op DurableRecordId := do
  requireOwnerSessionId ownerSessionId
  let recorded ← ofExcept (recordedGenerationId.mapM fun value =>
    requireDurableRecordId value "recorded_generation_id")
  let candidate ← ofExcept
    (requireDurableRecordId candidateGenerationId "candidate_generation_id")
  let label ← ofExcept (ownerSessionLabel ownerSessionId)
  let active ← read (.ownerActive label)
  let closing ← read (.ownerClosing label)
  let activeGeneration ← ofExcept (validateOwnerSessionActiveRecord ownerSessionId active)
  let closingGeneration ← ofExcept
    (validateOwnerSessionClosingRecord ownerSessionId closing)
  match activeGeneration, closingGeneration with
  | some activeGeneration, some closingGeneration => do
    let closure ← getOwnerSessionClosed ownerSessionId closingGeneration
    require
      ((active.bind OwnerSessionActive.previousSessionGenerationId) == some closingGeneration &&
        (recorded.isNone || recorded == some closingGeneration) && safelyClosed closure)
      (.conflict s!"owner session has an unfinished generation transition: {ownerSessionId}")
    unlink (.ownerClosing label)
    pure activeGeneration
  | some activeGeneration, none =>
    if recorded.isNone || recorded == some activeGeneration then pure activeGeneration
    else
      match active.bind OwnerSessionActive.previousSessionGenerationId with
      | none => raise (.conflict
          s!"recorded owner session generation does not match active core state: {ownerSessionId}")
      | some previous => do
        let closure ← getOwnerSessionClosed ownerSessionId previous
        require (recorded == some previous && safelyClosed closure) (.conflict
          s!"recorded owner session generation does not match active core state: {ownerSessionId}")
        pure activeGeneration
  | none, some closingGeneration => do
    require (recorded == some closingGeneration) (.conflict
      s!"recorded owner session generation does not match closure state: {ownerSessionId}")
    let closure ← getOwnerSessionClosed ownerSessionId closingGeneration
    require (safelyClosed closure)
      (.conflict s!"owner session generation is not safely closed: {ownerSessionId}")
    require (candidate != closingGeneration) (.conflict
      s!"new owner session generation must differ from the closed generation: {ownerSessionId}")
    let updatedAt ← utcNow
    put (.ownerActive label)
      { ownerSessionId, sessionGenerationId := candidate,
        previousSessionGenerationId := some closingGeneration,
        mirroredRemoteAuthority := false, updatedAt }
    unlink (.ownerClosing label)
    pure candidate
  | none, none => do
    require recorded.isNone
      (.conflict s!"recorded owner session generation has no core state: {ownerSessionId}")
    let updatedAt ← utcNow
    put (.ownerActive label)
      { ownerSessionId, sessionGenerationId := candidate, previousSessionGenerationId := none,
        mirroredRemoteAuthority := false, updatedAt }
    pure candidate

/-- `reopen_owner_session`. -/
def reopenOwnerSession (ownerSessionId previousSessionGenerationId sessionGenerationId : String) :
    Op Unit := do
  requireOwnerSessionId ownerSessionId
  let _previous ← ofExcept
    (requireDurableRecordId previousSessionGenerationId "previous_session_generation_id")
  let generation ← ofExcept
    (requireDurableRecordId sessionGenerationId "session_generation_id")
  let selected ← prepareOwnerSessionStart ownerSessionId (some previousSessionGenerationId)
    sessionGenerationId
  require (selected == generation)
    (.conflict s!"owner session reopen selected an existing generation: {ownerSessionId}")

/-- The cleanup policy of a closing request. -/
structure CleanupPolicy where
  stopWorker : Bool
  cancelJobs : Bool
  cancelSchedulerJobs : Bool
  deriving DecidableEq

/-- The policy of a stored intent. -/
def OwnerSessionCleanupIntent.policy (intent : OwnerSessionCleanupIntent) : CleanupPolicy :=
  ⟨intent.stopWorker, intent.cancelJobs, intent.cancelSchedulerJobs⟩

/-- The operation id of a new cleanup intent. -/
def cleanupOperationId : Option String → Op String
  | some operationId => pure operationId
  | none => uuid4 >>= fun uuid => pure s!"cleanup_{uuid.hex}"

/-- `set_owner_session_closing`. -/
def setOwnerSessionClosing (ownerSessionId sessionGenerationId : String)
    (operationId : Option String) (policy : CleanupPolicy) : Op OwnerSessionCleanupIntent := do
  requireOwnerSessionId ownerSessionId
  let generation ← ofExcept
    (requireDurableRecordId sessionGenerationId "session_generation_id")
  require (operationId.all fun id => startsWith id "cleanup_" && safeGlobalRecordId id)
    (.value "operation_id must be a safe cleanup_ identifier")
  require (!policy.cancelSchedulerJobs || policy.cancelJobs)
    (.value "cancel_scheduler_jobs requires cancel_jobs")
  let label ← ofExcept (ownerSessionLabel ownerSessionId)
  let closing ← read (.ownerClosing label)
  let closingGeneration ← ofExcept
    (validateOwnerSessionClosingRecord ownerSessionId closing)
  let activeGeneration ← ownerSessionActiveGeneration ownerSessionId
  let closure ← read (.ownerClosure label (closureToken generation))
  -- `safely_closed_retry`: the generation was closed and its marker still stands.
  require (activeGeneration == some generation ||
      activeGeneration.isNone && closingGeneration == some generation && (closure.any fun closure =>
          closure.ownerSessionId == ownerSessionId &&
            closure.sessionGenerationId == some generation && closure.residualResourceIds.isEmpty))
    (.conflict s!"owner session active generation does not match closing request: {ownerSessionId}")
  require (closingGeneration.isNone || closingGeneration == some generation)
    (.conflict s!"owner session generation changed before quiescence: {ownerSessionId}")
  match closing with
  | some closing => do
    require (closing.cleanupIntent.valid ownerSessionId generation)
      (.conflict s!"owner session cleanup intent is invalid: {ownerSessionId}")
    require (closing.cleanupIntent.policy == policy)
      (.conflict s!"owner session cleanup policy changed during retry: {ownerSessionId}")
    require (operationId.all fun id => closing.cleanupIntent.operationId == id)
      (.conflict s!"owner session cleanup operation changed during retry: {ownerSessionId}")
    pure closing.cleanupIntent
  | none => do
    let operationId ← cleanupOperationId operationId
    let createdAt ← utcNow
    let updatedAt ← utcNow
    let intent : OwnerSessionCleanupIntent :=
      { operationId, ownerSessionId,
        sessionGenerationId := generation, stopWorker := policy.stopWorker,
        cancelJobs := policy.cancelJobs, cancelSchedulerJobs := policy.cancelSchedulerJobs,
        createdAt }
    put (.ownerClosing label)
      { ownerSessionId, sessionGenerationId := generation, cleanupIntent := intent, updatedAt }
    pure intent

section

variable [Platform]

/-- `_write_immutable_owner_session_closure_unlocked`. -/
def writeImmutableOwnerSessionClosure (existing : Option OwnerSessionClosure)
    (write : OwnerSessionClosure → Op Unit) (closure : OwnerSessionClosure) :
    Op OwnerSessionClosure :=
  match existing with
  | some existing => do
    require (existing == { closure with closedAt := existing.closedAt })
      (.conflict s!"owner session closure history changed: {closure.ownerSessionId}")
    pure existing
  | none => do
    write closure
    pure closure

/-- The closure of a generation, with the bounds of its model. -/
def generationClosure (ownerSessionId : String) (generation : DurableRecordId)
    (residualResourceIds : List String) (closedAt : Time) :
    Except RelayError OwnerSessionClosure :=
  if ownerSessionId.length ≤ 256 ∧ residualResourceIds.length ≤ 1000 then
    .ok { ownerSessionId, sessionGenerationId := some generation,
          coveredBySessionGenerationId := none, coveredLegacyJobIds := [],
          residualResourceIds, closedAt }
  else .error (.value "owner-session closure is out of bounds")

/-- The closure that covers legacy jobs of no generation. -/
def legacyClosure (ownerSessionId : String) (generation : DurableRecordId)
    (legacyJobIds : List DurableRecordId) (closedAt : Time) : OwnerSessionClosure where
  ownerSessionId := ownerSessionId
  sessionGenerationId := none
  coveredBySessionGenerationId := some generation
  coveredLegacyJobIds := legacyJobIds
  residualResourceIds := []
  closedAt := closedAt

/-- Whether the ids are unique and sorted, as Python orders strings. -/
def sortedUnique : List String → Bool
  | [] | [_] => true
  | a :: b :: rest => decide (a < b) && sortedUnique (b :: rest)

/-- The legacy job ids, all of which must be durable ids. -/
def safeLegacyJobIds : List String → Except RelayError (List DurableRecordId)
  | [] => .ok []
  | id :: ids =>
    if h : isDurableRecordId id = true then
      match safeLegacyJobIds ids with
      | .ok rest => .ok (⟨id, h⟩ :: rest)
      | .error e => .error e
    else .error (.value "legacy_unversioned_job_ids contains an unsafe job id")

/-- The covered legacy jobs must belong to the session and to no generation. -/
def checkLegacyCoverage (ownerSessionId : String) (legacyJobId : DurableRecordId) : Op Unit := do
  let found ← read (.job legacyJobId)
  match found with
  | none => raise (.notFound s!"job not found: {legacyJobId}")
  | some job =>
    require (job.metadata.get "owner_session_id" == .str ownerSessionId &&
        job.metadata.get "owner_session_generation_id" == .null)
      (.conflict s!"legacy owner-session coverage identity mismatch: {legacyJobId}")

/-- Record the legacy jobs that the closure of a generation covers. -/
def coverLegacyJobs (label : FilesystemKey) (ownerSessionId : String)
    (generation : DurableRecordId) (legacyJobIds : List DurableRecordId) : Op Unit :=
  if legacyJobIds.isEmpty then pure ()
  else do
    let closedAt ← utcNow
    let existing ← read (.ownerLegacyClosure label)
    let _covered ← writeImmutableOwnerSessionClosure existing
      (fun c => putWithin (Platform.ownerClosureFits c) (.ownerLegacyClosure label) c)
      (legacyClosure ownerSessionId generation legacyJobIds closedAt)
    pure ()

/-- `set_owner_session_closed`. -/
def setOwnerSessionClosed (ownerSessionId sessionGenerationId : String)
    (residualResourceIds legacyUnversionedJobIds : List String) : Op OwnerSessionClosure := do
  requireOwnerSessionId ownerSessionId
  let generation ← ofExcept
    (requireDurableRecordId sessionGenerationId "session_generation_id")
  require (sortedUnique legacyUnversionedJobIds)
    (.value "legacy_unversioned_job_ids must be unique and sorted")
  require (decide (legacyUnversionedJobIds.length ≤ 1000))
    (.value "legacy_unversioned_job_ids cannot exceed 1000 entries")
  let legacyJobIds ← ofExcept (safeLegacyJobIds legacyUnversionedJobIds)
  require (legacyJobIds.isEmpty || residualResourceIds.isEmpty)
    (.conflict "legacy jobs cannot be covered while owner-session resources remain")
  let label ← ofExcept (ownerSessionLabel ownerSessionId)
  let closing ← read (.ownerClosing label)
  require closing.isSome
    (.conflict s!"owner session must be closing before it can be closed: {ownerSessionId}")
  require (closing.all fun closing => closing.ownerSessionId == ownerSessionId)
    (.conflict s!"owner session closing proof is invalid: {ownerSessionId}")
  require (closing.all fun closing => closing.sessionGenerationId == generation)
    (.conflict s!"owner session generation changed before closure: {ownerSessionId}")
  let closedAt ← utcNow
  let closure ← ofExcept
    (generationClosure ownerSessionId generation residualResourceIds closedAt)
  each (checkLegacyCoverage ownerSessionId) legacyJobIds
  let activeGeneration ← ownerSessionActiveGeneration ownerSessionId
  let existing ← read (.ownerClosure label (closureToken generation))
  require ((activeGeneration.isNone || activeGeneration == some generation) &&
      (activeGeneration.isSome || existing.isSome))
    (.conflict s!"owner session active generation does not match closure: {ownerSessionId}")
  let closure ← writeImmutableOwnerSessionClosure existing
    (fun c => putWithin (Platform.ownerClosureFits c)
      (.ownerClosure label (closureToken generation)) c) closure
  coverLegacyJobs label ownerSessionId generation legacyJobIds
  unlink (.ownerActive label)
  pure closure

end

/-- The last half of the mirror: admit a generation that is not closed. -/
def admitMirroredGeneration (label : FilesystemKey) (ownerSessionId : String)
    (generation : DurableRecordId) (active previous : Option DurableRecordId) : Op Unit := do
  let closure ← getOwnerSessionClosed ownerSessionId generation
  require closure.isNone
    (.conflict s!"owner session generation is already closed: {ownerSessionId}")
  if active.isSome then pure ()
  else do
    let updatedAt ← utcNow
    put (.ownerActive label)
      { ownerSessionId, sessionGenerationId := generation, previousSessionGenerationId := previous,
        mirroredRemoteAuthority := true, updatedAt }

/-- `mirror_owner_session_generation_open`. -/
def mirrorOwnerSessionGenerationOpen (ownerSessionId sessionGenerationId : String) :
    Op Unit := do
  requireOwnerSessionId ownerSessionId
  let generation ← ofExcept
    (requireDurableRecordId sessionGenerationId "session_generation_id")
  let label ← ofExcept (ownerSessionLabel ownerSessionId)
  let active ← read (.ownerActive label)
  let closing ← read (.ownerClosing label)
  let activeGeneration ← ofExcept (validateOwnerSessionActiveRecord ownerSessionId active)
  let closingGeneration ← ofExcept
    (validateOwnerSessionClosingRecord ownerSessionId closing)
  require (activeGeneration.isNone || activeGeneration == some generation)
    (.conflict s!"owner session active generation does not match remote mirror: {ownerSessionId}")
  match closingGeneration with
  | none => admitMirroredGeneration label ownerSessionId generation activeGeneration none
  | some closingGeneration => do
    let prior ← getOwnerSessionClosed ownerSessionId closingGeneration
    require (closingGeneration != generation && safelyClosed prior) (.conflict
      s!"owner session has unfinished local cleanup and rejects remote mirror: {ownerSessionId}")
    unlink (.ownerClosing label)
    admitMirroredGeneration label ownerSessionId generation activeGeneration
      (some closingGeneration)

end ClioQueue
