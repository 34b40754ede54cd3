/-
# Scheduler sources and gateway backlinks

`clio_relay/queue_gateway_indexes.py`: the scheduler ids named by the metadata of
a job or task, the backlinks between jobs and open gateway sessions, and the
reverse references from which the backlinks are rebuilt.

A `set` of the source is a list without duplicates, in the order of first
insertion; its iteration order is not modelled.
-/

import ClioQueue.Store

namespace ClioQueue

open Durable Durable.Prog

/-- `MAX_SCHEDULER_METADATA_RECORDS`. -/
def maxSchedulerMetadataRecords : Nat := 1000

/-- `MAX_GATEWAY_INDEX_RECORDS`. -/
def maxGatewayIndexRecords : Nat := 10000

/-- `bounded_json_record_paths`: a listing that must not exceed its limit. -/
def boundedListing {γ : Type} (f : (p : Path) → Content p → Option γ) (limit : Nat)
    (label : String) : Op (List γ) := do
  let found ← listing f
  require (decide (found.length ≤ limit))
    (.conflict s!"{label} exceeds its safety bound of {limit} records")
  pure found

/-! ### Scheduler metadata -/

/-- What `_metadata_scheduler_gc_state` has collected. -/
structure SchedulerGcState where
  schedulerIds : List String
  terminalIds : List String
  markerSeen : Bool
  deriving DecidableEq

/-- The state before the first observation. -/
def SchedulerGcState.start : SchedulerGcState := ⟨[], [], false⟩

/-- `phase.lower() in GC_TERMINAL_SCHEDULER_PHASES`. -/
def terminalSchedulerPhase (phase : Json) : Bool :=
  phase.str?.any fun phase => ["completed", "failed", "canceled"].contains phase.toLower

/-- `observe`. -/
def SchedulerGcState.observe (state : SchedulerGcState) (document : Json) : SchedulerGcState :=
  match document.obj? with
  | none => state
  | some fields =>
    match (Dict.get fields "scheduler_job_id").nonemptyStr? with
    | some schedulerId =>
      { schedulerIds := state.schedulerIds.insert schedulerId
        terminalIds :=
          if terminalSchedulerPhase (Dict.get fields "phase") then
            state.terminalIds.insert schedulerId
          else state.terminalIds
        markerSeen := true }
    | none =>
      if Dict.get fields "scheduler" ≠ .null ∨ Dict.get fields "scheduler_provider" ≠ .null then
        { state with markerSeen := true }
      else state

/-- Observe the documents of a list-valued field. -/
def SchedulerGcState.observeField (state : SchedulerGcState) (metadata : Dict) (field : String) :
    Except RelayError SchedulerGcState :=
  match (metadata.get field).arr? with
  | none => .ok state
  | some documents =>
    if maxSchedulerMetadataRecords < documents.length then
      .error (.conflict s!"{field} exceeds {maxSchedulerMetadataRecords} records")
    else .ok (documents.foldl SchedulerGcState.observe state)

/-- The ids of `scheduler_job_ids`. -/
def SchedulerGcState.addIds (state : SchedulerGcState) (metadata : Dict) :
    Except RelayError SchedulerGcState :=
  match (metadata.get "scheduler_job_ids").arr? with
  | none => .ok state
  | some ids =>
    if maxSchedulerMetadataRecords < ids.length then
      .error (.conflict s!"scheduler_job_ids exceeds {maxSchedulerMetadataRecords} records")
    else
      .ok ((ids.filterMap Json.nonemptyStr?).foldl (fun state id =>
        { state with schedulerIds := state.schedulerIds.insert id, markerSeen := true }) state)

/-- `_metadata_scheduler_gc_state`: the scheduler ids, and whether some scheduler
work may still be live. -/
def metadataSchedulerGcState (metadata : Dict) : Except RelayError (List String × Bool) := do
  let state := ((SchedulerGcState.start.observe (metadata.get "runtime_metadata")).observe
    (.obj metadata)).observe (metadata.get "scheduler_status")
  let state ← state.observeField metadata "scheduler_statuses"
  let state ← state.observeField metadata "scheduler_job_ownership"
  let state ← state.addIds metadata
  pure (state.schedulerIds,
    state.markerSeen && !(state.schedulerIds.all state.terminalIds.contains &&
      state.terminalIds.all state.schedulerIds.contains))

/-! ### Gateway relations -/

/-- `_gateway_source_provenance`. -/
def gatewaySourceProvenance (session : GatewaySession) : List Dict :=
  session.metadata :: (Dict.get session.gateway "jarvis_runtime_binding").obj?.toList

/-- `_gateway_direct_job_ids`. -/
def gatewayDirectJobIds (session : GatewaySession) : List String :=
  ((["relay_job_id", "job_id"].filterMap fun field =>
      (session.metadata.get field).nonemptyStr?) ++
    (gatewaySourceProvenance session).filterMap fun provenance =>
      (provenance.get "source_relay_job_id").nonemptyStr?).dedup

/-- `_gateway_direct_artifact_ids`: the candidates that are relay artifact ids. -/
def gatewayDirectArtifactIds (session : GatewaySession) : List DurableRecordId :=
  ((session.artifacts ++ (gatewaySourceProvenance session).filterMap fun provenance =>
      (provenance.get "source_relay_artifact_id").nonemptyStr?).filterMap fun candidate =>
        (validateDurableRecordId candidate).toOption).dedup

/-- The token of a scheduler id. -/
def schedulerToken (schedulerId : String) : RefToken := stableRefToken [schedulerId]

/-- `_gateway_reverse_directory`. -/
def gatewaysByPath (relation : GatewayRelation) (key : String) (sessionId : DurableRecordId) :
    Path :=
  .gatewaysBy relation (stableRefToken [key]) sessionId

/-- `_scheduler_reverse_ref_path`. -/
def schedulerReverseRefPath (schedulerId : String) (jobId : DurableRecordId) (sourceId : String) :
    Path :=
  .schedulerJob (schedulerToken schedulerId) (stableRefToken [jobId.value, sourceId])

/-- The value of a relation kind. -/
def RelationKind.value : RelationKind → String
  | .direct => "direct"
  | .artifact => "artifact"
  | .scheduler => "scheduler"

/-- The record name of a backlink. -/
def gatewayRefName (sessionId : DurableRecordId) (kind : RelationKind) (key : String)
    (sourceId : Option String) : RefToken :=
  stableRefToken [sessionId.value, kind.value, key, sourceId.getD ""]

/-- The backlink name under the session: the job and the record name. -/
def gatewayBacklinkName (jobId : DurableRecordId) (name : RefToken) : RefToken :=
  stableRefToken (jobId.value :: name.values)

/-- The gateway sessions that a reverse directory lists. -/
def gatewaysListed (relation : GatewayRelation) (key : String) (p : Path) (c : Content p) :
    Option GatewaySession :=
  match p, c with
  | .gatewaysBy r token _, session =>
    if r = relation ∧ token = stableRefToken [key] then some session else none
  | _, _ => none

section

variable [Platform] [Entropy]

/-- `_link_active_gateway_job_unlocked`. -/
def linkActiveGatewayJob (session : GatewaySession) (jobId : String) (kind : RelationKind)
    (key : String) (sourceId : Option String) : Op Unit := do
  let job ← ofExcept (durableKey jobId)
  let name := gatewayRefName session.sessionId kind key sourceId
  let document : ActiveGatewayRef :=
    { sessionId := session.sessionId, jobId := job, relationKind := kind, relationKey := key,
      sourceId, recordName := name }
  putWithin (Platform.gatewayRefFits document) (.activeGatewayRefByJob job name) document
  putWithin (Platform.gatewayRefFits document)
    (.activeGatewayRefBySession session.sessionId (gatewayBacklinkName job name)) document

/-- `_unlink_active_gateway_job_ref_unlocked`. -/
def unlinkActiveGatewayJobRef (sessionId jobId : DurableRecordId) (kind : RelationKind)
    (key : String) (sourceId : Option String) : Op Unit := do
  unlink (.activeGatewayRefByJob jobId (gatewayRefName sessionId kind key sourceId))
  unlink (.activeGatewayRefBySession sessionId
    (gatewayBacklinkName jobId (gatewayRefName sessionId kind key sourceId)))

/-- Drop a scheduler id that the source no longer names. -/
def dropSchedulerId (jobId : DurableRecordId) (sourceId schedulerId : String) : Op Unit := do
  unlink (schedulerReverseRefPath schedulerId jobId sourceId)
  let gateways ← boundedListing (gatewaysListed .scheduler schedulerId) maxGatewayIndexRecords
    s!"scheduler gateway reverse index {schedulerId}"
  each (fun gateway =>
    unlinkActiveGatewayJobRef gateway.sessionId jobId .scheduler schedulerId (some sourceId))
    gateways

/-- Link one gateway of a scheduler id, unless it is closed. -/
def linkSchedulerGateway (jobId : DurableRecordId) (sourceId schedulerId : String)
    (gateway : GatewaySession) : Op Unit :=
  if gateway.state = .closed then pure ()
  else linkActiveGatewayJob gateway jobId.value .scheduler schedulerId (some sourceId)

/-- Record a scheduler id that the source names. -/
def addSchedulerId (jobId : DurableRecordId) (sourceId schedulerId : String) : Op Unit := do
  let ref : SchedulerJobRef := { schedulerId, jobId, sourceId }
  putWithin (Platform.schedulerJobRefFits ref)
    (.schedulerJob (schedulerToken schedulerId) (stableRefToken [jobId.value, sourceId])) ref
  let gateways ← boundedListing (gatewaysListed .scheduler schedulerId) maxGatewayIndexRecords
    s!"scheduler gateway reverse index {schedulerId}"
  each (linkSchedulerGateway jobId sourceId schedulerId) gateways

/-- `_sync_scheduler_source_unlocked`. -/
def syncSchedulerSource (jobId : DurableRecordId) (sourceId : String) (metadata : Dict) :
    Op Unit := do
  let state ← ofExcept (metadataSchedulerGcState metadata)
  let source := stableRefToken [sourceId]
  let old ← read (.schedulerRefs jobId source)
  let oldIds := (old.map SchedulerSourceManifest.schedulerIds).getD []
  each (dropSchedulerId jobId sourceId) (oldIds.filter fun id => !state.1.contains id)
  let manifest : SchedulerSourceManifest :=
    { jobId, sourceId, schedulerIds := state.1.insertionSort (· ≤ ·), ambiguous := state.2 }
  (if !state.1.isEmpty || state.2 then
    putWithin (Platform.schedulerManifestFits manifest) (.schedulerRefs jobId source) manifest
  else unlink (.schedulerRefs jobId source))
  (if state.2 then put (.schedulerProtection jobId source) ()
  else unlink (.schedulerProtection jobId source))
  each (addSchedulerId jobId sourceId) state.1

/-! ### Gateway sessions -/

/-- `_write_gateway_reverse_ref_unlocked`. -/
def writeGatewayReverseRef (relation : GatewayRelation) (kind : RelationKind) (key : String)
    (session : GatewaySession) : Op Unit := do
  putWithin (Platform.gatewayFits session)
    (.gatewaysBy relation (stableRefToken [key]) session.sessionId) session
  let ref : GatewayReverseRef := { sessionId := session.sessionId, relation, relationKey := key }
  putWithin (Platform.gatewayReverseRefFits ref)
    (.gatewayReverseRef session.sessionId (stableRefToken [kind.value, key])) ref

/-- Index one artifact of a session, and link the job that produced it. -/
def indexGatewayArtifact (session : GatewaySession) (artifactId : DurableRecordId) :
    Op Unit := do
  writeGatewayReverseRef .artifact .artifact artifactId.value session
  let artifact ← read (.artifact artifactId)
  match artifact with
  | none => pure ()
  | some artifact =>
    linkActiveGatewayJob session artifact.jobId.value .artifact artifactId.value none

/-- The sources that name a scheduler id. -/
def schedulerJobsListed (schedulerId : String) (p : Path) (c : Content p) :
    Option SchedulerJobRef :=
  match p, c with
  | .schedulerJob token _, ref => if token = schedulerToken schedulerId then some ref else none
  | _, _ => none

/-- Index the scheduler job of a session. -/
def indexGatewayScheduler (session : GatewaySession) (schedulerId : String) : Op Unit := do
  writeGatewayReverseRef .scheduler .scheduler schedulerId session
  let refs ← boundedListing (schedulerJobsListed schedulerId) maxGatewayIndexRecords
    s!"scheduler job reverse index {schedulerId}"
  each (fun ref =>
    linkActiveGatewayJob session ref.jobId.value .scheduler schedulerId (some ref.sourceId)) refs

/-- `_index_gateway_session_unlocked`. -/
def indexGatewaySession (session : GatewaySession) : Op Unit :=
  if session.state = .closed then pure ()
  else do
    each (fun jobId => linkActiveGatewayJob session jobId .direct jobId none)
      (gatewayDirectJobIds session)
    each (indexGatewayArtifact session) (gatewayDirectArtifactIds session)
    match session.schedulerJobId with
    | none => pure ()
    | some schedulerId =>
      if schedulerId = "" then pure () else indexGatewayScheduler session schedulerId

/-- The backlinks of a session, with their names. -/
def activeRefsListed (sessionId : DurableRecordId) (p : Path) (c : Content p) :
    Option (RefToken × ActiveGatewayRef) :=
  match p, c with
  | .activeGatewayRefBySession id token, ref => if id = sessionId then some (token, ref) else none
  | _, _ => none

/-- The reverse references of a session, with their names. -/
def reverseRefsListed (sessionId : DurableRecordId) (p : Path) (c : Content p) :
    Option (RefToken × GatewayReverseRef) :=
  match p, c with
  | .gatewayReverseRef id token, ref => if id = sessionId then some (token, ref) else none
  | _, _ => none

/-- `_unindex_gateway_session_id_unlocked`, with nothing to preserve. -/
def unindexGatewaySessionId (sessionId : DurableRecordId) : Op Unit := do
  let active ← boundedListing (activeRefsListed sessionId) maxGatewayIndexRecords
    s!"active gateway backlinks {sessionId}"
  each (fun (entry : RefToken × ActiveGatewayRef) => do
    unlink (.activeGatewayRefByJob entry.2.jobId entry.2.recordName)
    unlink (.activeGatewayRefBySession sessionId entry.1)) active
  let reverse ← boundedListing (reverseRefsListed sessionId) maxGatewayIndexRecords
    s!"gateway reverse backlinks {sessionId}"
  each (fun (entry : RefToken × GatewayReverseRef) => do
    unlink (gatewaysByPath entry.2.relation entry.2.relationKey sessionId)
    unlink (.gatewayReverseRef sessionId entry.1)) reverse

/-- `sync_gateway_session_derived`. -/
def syncGatewaySessionDerived (sessionId : DurableRecordId) : Op Unit := do
  let session ← read (.gatewaySession sessionId)
  unindexGatewaySessionId sessionId
  match session with
  | none => pure ()
  | some session => indexGatewaySession session

end

end ClioQueue
