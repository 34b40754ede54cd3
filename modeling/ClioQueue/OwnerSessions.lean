/-
# Owner sessions

`clio_relay/queue_owner_session_records.py` and
`clio_relay/queue_owner_session_lifecycle.py`.  An owner session has at most one
active generation; a generation is quiesced by a closing marker, finished by an
immutable closure record, and followed by the next generation.  New work of a
session is admitted by `assertOwnerSessionIntakeOpen`.

The marker is written under `label_key` of the session id and read by the
admission check under `durable_key`.
-/

import ClioQueue.Store

namespace ClioQueue

open Durable Durable.Prog

/-- `MAX_ACTIVE_JOB_RECORDS`. -/
def maxActiveJobRecords : Nat := 10000

/-! ### Identity metadata -/

/-- The owner session of a record: its id and generation, `none` for a record of
no session; the generation is missing only for legacy records. -/
def ownerSessionIdentity (metadata : Dict) (allowLegacy : Bool) :
    Except RelayError (Option (String × Option DurableRecordId)) :=
  match metadata.get "owner_session_id" with
  | .null =>
    if metadata.get "owner_session_generation_id" ≠ .null ∨
        metadata.get "owner_session_admission_id" ≠ .null then
      .error (.conflict
        "owner_session_generation_id and owner_session_admission_id require owner_session_id")
    else .ok none
  | owner =>
    match owner.nonemptyStr? with
    | none => .error (.conflict "owner_session_id must be a non-empty string")
    | some ownerSessionId =>
      let admission := metadata.get "owner_session_admission_id"
      if admission ≠ .null ∧ ¬ admission.str?.any safeGlobalRecordId then
        .error (.conflict "owner_session_admission_id must be a safe identifier")
      else
        match metadata.get "owner_session_generation_id", allowLegacy with
        | .null, true => .ok (some (ownerSessionId, none))
        | generation, _ =>
          match generation.str? with
          | none => .error (.conflict "new owner-session records require owner_session_generation_id")
          | some text =>
            match validateDurableRecordId text with
            | .ok generationId => .ok (some (ownerSessionId, some generationId))
            | .error _ => .error (.conflict
                "owner_session_generation_id must be a portable durable identifier")

/-- `_validate_new_owner_session_metadata`. -/
def validateNewOwnerSessionMetadata (metadata : Dict) : Except RelayError Unit :=
  match ownerSessionIdentity metadata false with
  | .ok _ => .ok ()
  | .error e => .error e

/-! ### Paths -/

/-- `label_key` of an owner session. -/
def ownerSessionLabel (ownerSessionId : String) : Except RelayError FilesystemKey :=
  labelKey ownerSessionId "owner-session"

/-- The last component of the path of a generation's closure. -/
def closureToken (generation : DurableRecordId) : RefToken := stableRefToken [generation.value]

/-! ### Transition records -/

/-- `_validate_owner_session_active_record`; the stored record is always active and
its generations are durable ids. -/
def validateOwnerSessionActiveRecord (ownerSessionId : String) :
    Option OwnerSessionActive → Except RelayError (Option DurableRecordId)
  | none => .ok none
  | some active =>
    if active.ownerSessionId = ownerSessionId then .ok (some active.sessionGenerationId)
    else .error (.conflict s!"owner session active record is invalid: {ownerSessionId}")

/-- `_validate_owner_session_closing_record`. -/
def validateOwnerSessionClosingRecord (ownerSessionId : String) :
    Option OwnerSessionClosing → Except RelayError (Option DurableRecordId)
  | none => .ok none
  | some closing =>
    if closing.ownerSessionId = ownerSessionId then .ok (some closing.sessionGenerationId)
    else .error (.conflict s!"owner session closing record is invalid: {ownerSessionId}")

/-- `_validate_owner_session_cleanup_intent`, the test on a stored intent. -/
def OwnerSessionCleanupIntent.valid (intent : OwnerSessionCleanupIntent) (ownerSessionId : String)
    (generation : DurableRecordId) : Bool :=
  intent.ownerSessionId == ownerSessionId && intent.sessionGenerationId == generation &&
    startsWith intent.operationId "cleanup_" && safeGlobalRecordId intent.operationId &&
    (!intent.cancelSchedulerJobs || intent.cancelJobs)

/-- `_owner_session_active_generation`. -/
def ownerSessionActiveGeneration (ownerSessionId : String) : Op (Option DurableRecordId) := do
  let label ← ofExcept (ownerSessionLabel ownerSessionId)
  let active ← read (.ownerActive label)
  ofExcept (validateOwnerSessionActiveRecord ownerSessionId active)

/-- `get_owner_session_closed`, for a generation. -/
def getOwnerSessionClosed (ownerSessionId : String) (generation : DurableRecordId) :
    Op (Option OwnerSessionClosure) := do
  let label ← ofExcept (ownerSessionLabel ownerSessionId)
  let closure ← read (.ownerClosure label (closureToken generation))
  require (closure.all fun closure =>
      closure.ownerSessionId == ownerSessionId && closure.sessionGenerationId == some generation)
    (.conflict s!"owner session closure identity mismatch: {ownerSessionId}")
  pure closure

/-! ### Intake -/

/-- `metadata.get("owner_session_admission_id", owner_session_id)`. -/
def admissionSessionId (metadata : Dict) (ownerSessionId : String) : Json :=
  (metadata.lookup "owner_session_admission_id").getD (.str ownerSessionId)

/-- `_assert_owner_session_intake_open_unlocked`. -/
def assertOwnerSessionIntakeOpen (metadata : Dict) (requireActive : Bool) : Op Unit := do
  let identity ← ofExcept (ownerSessionIdentity metadata false)
  match identity with
  | none => pure ()
  | some (ownerSessionId, generation) =>
    match (admissionSessionId metadata ownerSessionId).str? with
    | none => raise (.conflict "owner_session_admission_id must be a safe identifier")
    | some admission => do
      require (safeGlobalRecordId admission)
        (.conflict "owner_session_admission_id must be a safe identifier")
      let key ← ofExcept (durableKey admission)
      let closing ← read (.ownerClosing (.plain key.value))
      let closingGeneration ← ofExcept (validateOwnerSessionClosingRecord admission closing)
      require closingGeneration.isNone
        (.conflict s!"owner session generation is closing and rejects new work: {ownerSessionId}")
      let active ← ownerSessionActiveGeneration admission
      require (!requireActive || active.isSome)
        (.conflict s!"owner session generation has no active admission state: {ownerSessionId}")
      require (active.isNone || active == generation)
        (.conflict s!"owner session generation does not match active intake: {ownerSessionId}")
      match generation with
      | none => pure ()
      | some generation => do
        let closure ← getOwnerSessionClosed admission generation
        require closure.isNone
          (.conflict s!"owner session generation is already closed: {ownerSessionId}")

/-- The membership record of a job, with the length bounds of its model. -/
def ownerSessionJobMembership (job : RelayJob) (ownerSessionId : String)
    (generation : Option DurableRecordId) : Except RelayError OwnerSessionJobMembership :=
  if ownerSessionId.length ≤ 256 ∧ 1 ≤ job.cluster.length ∧ job.cluster.length ≤ 256 then
    .ok { ownerSessionId, sessionGenerationId := generation, jobId := job.jobId,
          cluster := job.cluster, state := job.state, createdAt := job.createdAt,
          updatedAt := job.updatedAt }
  else .error (.value "owner-session job membership is out of bounds")

/-- The file of a membership. -/
def membershipPath (ownerSessionId : String) (generation : Option DurableRecordId)
    (jobId : DurableRecordId) : Path :=
  .ownerSessionJob (stableRefToken [ownerSessionId])
    (generation.map fun generation => stableRefToken [generation.value])
    (stableRefToken [jobId.value])

/-- The number of members of a generation. -/
def membershipCount (ownerSessionId : String) (generation : Option DurableRecordId) : Op Nat :=
  look fun s => s.count fun p _ =>
    match p with
    | .ownerSessionJob owner gen _ =>
      decide (owner = stableRefToken [ownerSessionId] ∧
        gen = generation.map fun generation => stableRefToken [generation.value])
    | _ => false

/-- Whether a job has been recorded as a member. -/
def membershipPresent (ownerSessionId : String) (generation : Option DurableRecordId)
    (jobId : DurableRecordId) : Op Bool :=
  present (membershipPath ownerSessionId generation jobId)

/-- `_sync_owner_session_job_membership_unlocked`. -/
def syncOwnerSessionJobMembership (job : RelayJob) : Op Unit := do
  let identity ← ofExcept (ownerSessionIdentity job.metadata true)
  match identity with
  | none => pure ()
  | some (ownerSessionId, generation) => do
    let membership ← ofExcept (ownerSessionJobMembership job ownerSessionId generation)
    let found ← membershipPresent ownerSessionId generation job.jobId
    let count ← membershipCount ownerSessionId generation
    require (found || decide (count < maxActiveJobRecords))
      (.conflict "owner_session_job_capacity_reached: owner-session generation job capacity 10000 reached")
    put (membershipPath ownerSessionId generation job.jobId) membership

end ClioQueue
