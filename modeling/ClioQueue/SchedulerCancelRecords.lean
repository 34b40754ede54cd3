/-
# Scheduler cancellation records

`clio_relay/models_scheduling.py` (`SchedulerCancelDisposition`,
`SchedulerCancelPending`) and `clio_relay/queue_scheduler_cancel_records.py`.

A record is written as a JSON document without its null fields (`write_model`
with `exclude_none`) and read back through pydantic: first the types and the
defaults of the fields (`parse`), then their bounds and the model validators
(`modelValidate`).  The store keeps the record whose document it holds; a read
decodes that document (`SchedulerCancelPending.decode`), and so fails exactly on
the records that are not `Valid` (`decode_document`).
-/

import ClioQueue.Store

namespace ClioQueue

/-! ### States -/

namespace SchedulerCancelDispositionState

/-- The value of the enumeration. -/
def value : SchedulerCancelDispositionState → String
  | .pending => "pending"
  | .retryWait => "retry_wait"
  | .cancelRequested => "cancel_requested"
  | .canceled => "canceled"
  | .terminal => "terminal"
  | .notFound => "not_found"
  | .refused => "refused"
  | .exhausted => "exhausted"

/-- The state of a value. -/
def ofValue (text : String) : Option SchedulerCancelDispositionState :=
  [.pending, .retryWait, .cancelRequested, .canceled, .terminal, .notFound, .refused,
    .exhausted].find? fun state => state.value = text

@[simp]
theorem ofValue_value (state : SchedulerCancelDispositionState) :
    ofValue state.value = some state := by
  cases state <;> decide

/-- The states in which a cancellation attempt is due. -/
def retryable (state : SchedulerCancelDispositionState) : Bool :=
  state = .pending || state = .retryWait

/-- The states that ask for no further work. -/
def settled (state : SchedulerCancelDispositionState) : Bool :=
  [.canceled, .terminal, .notFound, .refused, .exhausted].contains state

end SchedulerCancelDispositionState

namespace IdentityResolution

/-- The literal. -/
def value : IdentityResolution → String
  | .pending => "pending"
  | .resolved => "resolved"
  | .none => "none"
  | .superseded => "superseded"

/-- The resolution of a literal. -/
def ofValue (text : String) : Option IdentityResolution :=
  [.pending, .resolved, .none, .superseded].find? fun resolution => resolution.value = text

@[simp]
theorem ofValue_value (resolution : IdentityResolution) :
    ofValue resolution.value = some resolution := by
  cases resolution <;> decide

end IdentityResolution

/-! ### Validation -/

/-- `min_length` and `max_length`. -/
def lengthWithin (least most : Nat) (text : String) : Bool :=
  decide (least ≤ text.length) && decide (text.length ≤ most)

/-- `validate_attempt_claim` and `validate_confirmation_claim`: the three claim
fields are all missing, or all there, in a state that may be claimed, and the
claim expires after it was made. -/
def validateClaim (claimId : Option DurableRecordId) (claimedAt expiresAt : Option Time)
    (claimable : Bool) : Bool :=
  match claimId, claimedAt, expiresAt with
  | none, none, none => true
  | some _, some claimedAt, some expiresAt => claimable && decide (claimedAt < expiresAt)
  | _, _, _ => false

/-- The bounds and validators of `SchedulerCancelDisposition`. -/
structure SchedulerCancelDisposition.Valid (d : SchedulerCancelDisposition) : Prop where
  schedulerJobId : lengthWithin 1 256 d.schedulerJobId = true
  provider : d.provider.all (lengthWithin 1 128) = true
  attempts : d.attempts ≤ 100
  confirmationAttempts : d.confirmationAttempts ≤ 100
  lastError : d.lastError.all (lengthWithin 0 16384) = true
  attemptClaim : validateClaim d.attemptClaimId d.attemptClaimedAt d.attemptClaimExpiresAt
    d.state.retryable = true
  confirmationClaim : validateClaim d.confirmationClaimId d.confirmationClaimedAt
    d.confirmationClaimExpiresAt (d.state = .cancelRequested) = true

instance (d : SchedulerCancelDisposition) : Decidable d.Valid :=
  decidable_of_iff
    (lengthWithin 1 256 d.schedulerJobId = true ∧ d.provider.all (lengthWithin 1 128) = true ∧
      d.attempts ≤ 100 ∧ d.confirmationAttempts ≤ 100 ∧
      d.lastError.all (lengthWithin 0 16384) = true ∧
      validateClaim d.attemptClaimId d.attemptClaimedAt d.attemptClaimExpiresAt
        d.state.retryable = true ∧
      validateClaim d.confirmationClaimId d.confirmationClaimedAt d.confirmationClaimExpiresAt
        (d.state = .cancelRequested) = true)
    ⟨fun ⟨h₁, h₂, h₃, h₄, h₅, h₆, h₇⟩ => ⟨h₁, h₂, h₃, h₄, h₅, h₆, h₇⟩,
      fun ⟨h₁, h₂, h₃, h₄, h₅, h₆, h₇⟩ => ⟨h₁, h₂, h₃, h₄, h₅, h₆, h₇⟩⟩

/-- `SchedulerCancelDisposition.model_validate`. -/
def SchedulerCancelDisposition.modelValidate (d : SchedulerCancelDisposition) :
    Except RelayError SchedulerCancelDisposition :=
  if d.Valid then .ok d
  else .error (.value "validation error for SchedulerCancelDisposition")

/-- The bounds of `SchedulerCancelPending`. -/
structure SchedulerCancelPending.Valid (record : SchedulerCancelPending) : Prop where
  cluster : lengthWithin 1 256 record.cluster = true
  reason : lengthWithin 1 256 record.reason = true
  length : record.dispositions.length ≤ 1000
  dispositions : ∀ d ∈ record.dispositions, d.Valid

instance (record : SchedulerCancelPending) : Decidable record.Valid :=
  decidable_of_iff
    (lengthWithin 1 256 record.cluster = true ∧ lengthWithin 1 256 record.reason = true ∧
      record.dispositions.length ≤ 1000 ∧ ∀ d ∈ record.dispositions, d.Valid)
    ⟨fun ⟨h₁, h₂, h₃, h₄⟩ => ⟨h₁, h₂, h₃, h₄⟩, fun ⟨h₁, h₂, h₃, h₄⟩ => ⟨h₁, h₂, h₃, h₄⟩⟩

/-- `SchedulerCancelPending.model_validate`. -/
def SchedulerCancelPending.modelValidate (record : SchedulerCancelPending) :
    Except RelayError SchedulerCancelPending :=
  if record.Valid then .ok record
  else .error (.value "validation error for SchedulerCancelPending")

/-! ### Documents -/

section Documents

variable [Platform]

/-- A `datetime` in a document. -/
def dumpDatetime (time : Time) : Json := .str (Platform.dumpDatetime time)

/-- A `datetime` from a document. -/
def parseDatetime (value : Json) : Option Time := value.str?.bind Platform.parseDatetime

omit [Platform] in
/-- An integer that is not negative, from a document. -/
def parseNat (value : Json) : Option Nat :=
  value.int?.bind fun n => if 0 ≤ n then some n.toNat else none

omit [Platform] in
/-- A `DurableRecordId` from a document. -/
def parseDurableRecordId (value : Json) : Option DurableRecordId :=
  value.str?.bind fun text => (validateDurableRecordId text).toOption

@[simp]
theorem parseDatetime_dumpDatetime (time : Time) : parseDatetime (dumpDatetime time) = some time :=
  Platform.parse_dumpDatetime time

omit [Platform] in
@[simp]
theorem parseNat_num (n : Nat) : parseNat (.num n "") = some n := by
  simp [parseNat, Json.int?]

omit [Platform] in
@[simp]
theorem parseDurableRecordId_str (id : DurableRecordId) :
    parseDurableRecordId (.str id.value) = some id := by
  simp [parseDurableRecordId, Json.str?, validateDurableRecordId, id.valid, Except.toOption]

namespace SchedulerCancelDisposition

/-- The fields of a disposition. -/
def fields (d : SchedulerCancelDisposition) : List (String × Option Json) :=
  [("scheduler_job_id", some (.str d.schedulerJobId)),
    ("provider", d.provider.map .str),
    ("state", some (.str d.state.value)),
    ("attempts", some (.num d.attempts "")),
    ("confirmation_attempts", some (.num d.confirmationAttempts "")),
    ("next_attempt_at", d.nextAttemptAt.map dumpDatetime),
    ("last_error", d.lastError.map .str),
    ("attempt_claim_id", d.attemptClaimId.map fun id => .str id.value),
    ("attempt_claimed_at", d.attemptClaimedAt.map dumpDatetime),
    ("attempt_claim_expires_at", d.attemptClaimExpiresAt.map dumpDatetime),
    ("confirmation_claim_id", d.confirmationClaimId.map fun id => .str id.value),
    ("confirmation_claimed_at", d.confirmationClaimedAt.map dumpDatetime),
    ("confirmation_claim_expires_at", d.confirmationClaimExpiresAt.map dumpDatetime),
    ("updated_at", some (dumpDatetime d.updatedAt))]

/-- The names of the fields of a disposition. -/
def fieldNames : List String :=
  ["scheduler_job_id", "provider", "state", "attempts", "confirmation_attempts",
    "next_attempt_at", "last_error", "attempt_claim_id", "attempt_claimed_at",
    "attempt_claim_expires_at", "confirmation_claim_id", "confirmation_claimed_at",
    "confirmation_claim_expires_at", "updated_at"]

/-- The document of a disposition. -/
def document (d : SchedulerCancelDisposition) : Json := .obj (Dict.present d.fields)

/-- The types and defaults of the fields; `updated_at`, whose default is the time
of the read, is in every document. -/
def parseFields (d : Dict) : Option SchedulerCancelDisposition := do
  guard (Dict.onlyHas d fieldNames)
  let schedulerJobId ← Dict.required Json.str? d "scheduler_job_id"
  let provider ← Dict.optional Json.str? d "provider"
  let state ←
    Dict.defaulted (fun value => value.str?.bind SchedulerCancelDispositionState.ofValue) .pending d
      "state"
  let attempts ← Dict.defaulted parseNat 0 d "attempts"
  let confirmationAttempts ← Dict.defaulted parseNat 0 d "confirmation_attempts"
  let nextAttemptAt ← Dict.optional parseDatetime d "next_attempt_at"
  let lastError ← Dict.optional Json.str? d "last_error"
  let attemptClaimId ← Dict.optional parseDurableRecordId d "attempt_claim_id"
  let attemptClaimedAt ← Dict.optional parseDatetime d "attempt_claimed_at"
  let attemptClaimExpiresAt ← Dict.optional parseDatetime d "attempt_claim_expires_at"
  let confirmationClaimId ← Dict.optional parseDurableRecordId d "confirmation_claim_id"
  let confirmationClaimedAt ← Dict.optional parseDatetime d "confirmation_claimed_at"
  let confirmationClaimExpiresAt ←
    Dict.optional parseDatetime d "confirmation_claim_expires_at"
  let updatedAt ← Dict.required parseDatetime d "updated_at"
  some ⟨schedulerJobId, provider, state, attempts, confirmationAttempts, nextAttemptAt, lastError,
    attemptClaimId, attemptClaimedAt, attemptClaimExpiresAt, confirmationClaimId,
    confirmationClaimedAt, confirmationClaimExpiresAt, updatedAt⟩

/-- A disposition from its document, before its bounds are checked. -/
def parse (value : Json) : Option SchedulerCancelDisposition := value.obj?.bind parseFields

omit [Platform] in
/-- An optional field of a document, read back. -/
theorem optional_lookup {α : Type} {parse : Json → Option α} {dump : α → Json} {d : Dict}
    {key : String} {value : Option α} (h : d.lookup key = value.map dump)
    (hparse : ∀ a, parse (dump a) = some a) (hnull : ∀ a, dump a ≠ .null) :
    Dict.optional parse d key = some value := by
  rw [Dict.optional, h]
  rcases value with _ | a
  · rfl
  · rw [Option.map_some]
    have ha := hparse a
    have hne := hnull a
    cases hdump : dump a with
    | null => exact absurd hdump hne
    | _ =>
      rw [hdump] at ha
      simp only [ha, Option.map_some]

/-- **Reading a disposition back.** -/
theorem parse_document (d : SchedulerCancelDisposition) : parse d.document = some d := by
  have honly : Dict.onlyHas (Dict.present d.fields) fieldNames = true :=
    Dict.onlyHas_present d.fields
  have hstr : ∀ (key : String) (value : Option String),
      (Dict.present d.fields).lookup key = value.map Json.str →
      Dict.optional Json.str? (Dict.present d.fields) key = some value :=
    fun key value h => optional_lookup h (fun _ => rfl) nofun
  have htime : ∀ (key : String) (value : Option Time),
      (Dict.present d.fields).lookup key = value.map dumpDatetime →
      Dict.optional parseDatetime (Dict.present d.fields) key = some value :=
    fun key value h => optional_lookup h parseDatetime_dumpDatetime nofun
  have hid : ∀ (key : String) (value : Option DurableRecordId),
      (Dict.present d.fields).lookup key = value.map (fun id => .str id.value) →
      Dict.optional parseDurableRecordId (Dict.present d.fields) key = some value :=
    fun key value h => optional_lookup h parseDurableRecordId_str nofun
  have hat : ∀ (key : String) (value : Option Json), (d.fields.lookup key).join = value →
      (Dict.present d.fields).lookup key = value :=
    fun key value h => (Dict.lookup_present d.fields key (show fieldNames.Nodup by decide)).trans h
  show parseFields (Dict.present d.fields) = some d
  unfold parseFields
  simp only [Dict.required, Dict.defaulted]
  rw [honly, hat "scheduler_job_id" (some (.str d.schedulerJobId)) rfl,
    hstr "provider" d.provider (hat _ _ rfl),
    hat "state" (some (.str d.state.value)) rfl,
    hat "attempts" (some (.num d.attempts "")) rfl,
    hat "confirmation_attempts" (some (.num d.confirmationAttempts "")) rfl,
    htime "next_attempt_at" d.nextAttemptAt (hat _ _ rfl),
    hstr "last_error" d.lastError (hat _ _ rfl),
    hid "attempt_claim_id" d.attemptClaimId (hat _ _ rfl),
    htime "attempt_claimed_at" d.attemptClaimedAt (hat _ _ rfl),
    htime "attempt_claim_expires_at" d.attemptClaimExpiresAt (hat _ _ rfl),
    hid "confirmation_claim_id" d.confirmationClaimId (hat _ _ rfl),
    htime "confirmation_claimed_at" d.confirmationClaimedAt (hat _ _ rfl),
    htime "confirmation_claim_expires_at" d.confirmationClaimExpiresAt (hat _ _ rfl),
    hat "updated_at" (some (dumpDatetime d.updatedAt)) rfl]
  simp only [Option.bind_some, Json.str?, parseNat_num, parseDatetime_dumpDatetime,
    SchedulerCancelDispositionState.ofValue_value]
  rfl

end SchedulerCancelDisposition

namespace SchedulerCancelPending

/-- The fields of a record. -/
def fields (record : SchedulerCancelPending) : List (String × Option Json) :=
  [("schema_version", some (.str record.schemaVersion)),
    ("job_id", some (.str record.jobId.value)),
    ("cluster", some (.str record.cluster)),
    ("requested_at", some (dumpDatetime record.requestedAt)),
    ("reason", some (.str record.reason)),
    ("identity_resolution", some (.str record.identityResolution.value)),
    ("dispositions", some (.arr (record.dispositions.map SchedulerCancelDisposition.document))),
    ("updated_at", some (dumpDatetime record.updatedAt))]

/-- The names of the fields of a record. -/
def fieldNames : List String :=
  ["schema_version", "job_id", "cluster", "requested_at", "reason", "identity_resolution",
    "dispositions", "updated_at"]

/-- `encode_scheduler_cancel_pending`: the document of a record. -/
def document (record : SchedulerCancelPending) : Json := .obj (Dict.present record.fields)

/-- The types and defaults of the fields. -/
def parseFields (d : Dict) : Option SchedulerCancelPending := do
  guard (Dict.onlyHas d fieldNames)
  let schemaVersion ←
    Dict.defaulted Json.str? "clio-relay.scheduler-cancel-pending.v1" d "schema_version"
  let jobId ← Dict.required parseDurableRecordId d "job_id"
  let cluster ← Dict.required Json.str? d "cluster"
  let requestedAt ← Dict.required parseDatetime d "requested_at"
  let reason ← Dict.defaulted Json.str? "operator_request" d "reason"
  let identityResolution ←
    Dict.defaulted (fun value => value.str?.bind IdentityResolution.ofValue) .pending d
      "identity_resolution"
  let dispositions ←
    Dict.defaulted
      (fun value => value.arr?.bind fun items => items.mapM SchedulerCancelDisposition.parse) [] d
      "dispositions"
  let updatedAt ← Dict.required parseDatetime d "updated_at"
  some ⟨schemaVersion, jobId, cluster, requestedAt, reason, identityResolution, dispositions,
    updatedAt⟩

/-- A record from its document, before its bounds are checked. -/
def parse (value : Json) : Option SchedulerCancelPending := value.obj?.bind parseFields

/-- `decode_scheduler_cancel_pending`. -/
def decode (value : Json) : Except RelayError SchedulerCancelPending :=
  match parse value with
  | none => .error (.value "validation error for SchedulerCancelPending")
  | some record => record.modelValidate

/-- **Reading a record back**, before its bounds are checked. -/
theorem parse_document (record : SchedulerCancelPending) : parse record.document = some record := by
  have honly : Dict.onlyHas (Dict.present record.fields) fieldNames = true :=
    Dict.onlyHas_present record.fields
  have hat : ∀ (key : String) (value : Option Json), (record.fields.lookup key).join = value →
      (Dict.present record.fields).lookup key = value := by
    intro key value h
    rw [Dict.lookup_present record.fields key (show fieldNames.Nodup by decide), h]
  have hitems : (record.dispositions.map SchedulerCancelDisposition.document).mapM
      SchedulerCancelDisposition.parse = some record.dispositions := by
    induction record.dispositions with
    | nil => rfl
    | cons d ds ih =>
      rw [List.map_cons, List.mapM_cons, SchedulerCancelDisposition.parse_document, ih]
      rfl
  show parseFields (Dict.present record.fields) = some record
  unfold parseFields
  simp only [Dict.required, Dict.defaulted]
  rw [honly, hat "schema_version" (some (.str record.schemaVersion)) rfl,
    hat "job_id" (some (.str record.jobId.value)) rfl,
    hat "cluster" (some (.str record.cluster)) rfl,
    hat "requested_at" (some (dumpDatetime record.requestedAt)) rfl,
    hat "reason" (some (.str record.reason)) rfl,
    hat "identity_resolution" (some (.str record.identityResolution.value)) rfl,
    hat "dispositions"
      (some (.arr (record.dispositions.map SchedulerCancelDisposition.document))) rfl,
    hat "updated_at" (some (dumpDatetime record.updatedAt)) rfl]
  simp only [Option.bind_some, Json.str?, Json.arr?, parseDurableRecordId_str,
    parseDatetime_dumpDatetime, IdentityResolution.ofValue_value, hitems]
  rfl

/-- **A document is read back exactly when its record is within bounds.** -/
theorem decode_document (record : SchedulerCancelPending) :
    decode record.document = record.modelValidate := by
  rw [decode, parse_document]

end SchedulerCancelPending

end Documents

/-! ### Lookups and ordering -/

namespace SchedulerCancelPending

/-- `complete`: no further cancellation work is due. -/
def complete (record : SchedulerCancelPending) : Bool :=
  record.identityResolution = .none || record.identityResolution = .superseded ||
    (record.identityResolution = .resolved && !record.dispositions.isEmpty &&
      record.dispositions.all fun item => item.state.settled)

/-- The first disposition of a scheduler identity. -/
def find (record : SchedulerCancelPending) (schedulerJobId : String) :
    Option SchedulerCancelDisposition :=
  record.dispositions.find? fun item => item.schedulerJobId = schedulerJobId

/-- The dispositions with the first one of the item's identity replaced by it. -/
def replaced (item : SchedulerCancelDisposition) :
    List SchedulerCancelDisposition → List SchedulerCancelDisposition
  | [] => []
  | d :: ds => if d.schedulerJobId = item.schedulerJobId then item :: ds else d :: replaced item ds

end SchedulerCancelPending

/-- A claim that is there and has not expired. -/
def claimLive (claimId : Option DurableRecordId) (expiresAt : Option Time) (now : Time) : Bool :=
  claimId.isSome && expiresAt.any fun expiry => decide (now < expiry)

/-- `scheduler_cancel_disposition_is_due`. -/
def schedulerCancelDispositionIsDue (d : SchedulerCancelDisposition) (now : Time) : Bool :=
  if d.state.retryable then
    !claimLive d.attemptClaimId d.attemptClaimExpiresAt now &&
      d.nextAttemptAt.all fun due => decide (due ≤ now)
  else if d.state = .cancelRequested then
    !claimLive d.confirmationClaimId d.confirmationClaimExpiresAt now &&
      d.nextAttemptAt.all fun due => decide (due ≤ now)
  else false

/-- `scheduler_cancel_record_is_due`. -/
def schedulerCancelRecordIsDue (record : SchedulerCancelPending) (now : Time) : Bool :=
  if record.complete then false
  else if record.identityResolution = .pending then true
  else record.dispositions.any fun item => schedulerCancelDispositionIsDue item now

/-- The due time of `scheduler_cancel_due_sort_key`. -/
def schedulerCancelDueTime (record : SchedulerCancelPending) : Time :=
  let unsettled := record.dispositions.filter fun item =>
    item.state.retryable || item.state = .cancelRequested
  let dueTimes := unsettled.map fun item =>
    (((item.attemptClaimExpiresAt.orElse fun _ => item.confirmationClaimExpiresAt).orElse fun _ =>
      item.nextAttemptAt).getD record.requestedAt)
  match dueTimes with
  | [] => record.requestedAt
  | due :: rest => rest.foldl min due

/-- The order of `scheduler_cancel_due_sort_key`. -/
def schedulerCancelDueBefore (a b : SchedulerCancelPending) : Bool :=
  decide (schedulerCancelDueTime a < schedulerCancelDueTime b) ||
    (decide (schedulerCancelDueTime a = schedulerCancelDueTime b) &&
      decide (a.jobId.value ≤ b.jobId.value))

end ClioQueue
