/-
# Browser attachments

`clio_relay/queue_browser_attachments.py` with `BrowserAttachmentRecord` of
`clio_relay/browser_gateway.py`, and `prepare_gateway_teardown_intent` of
`clio_relay/queue_gateways.py`.  A gateway session has one slot for a browser
attachment, below the key `browser_attachment` of its `gateway` document; the
published proxy of the attachment is below `transport`, and the ownership intent
below `ownership_intents`.

What an operation decides on the session it reads is a pure function
(`prepareAttachment`, …); the operation replays the journal, reads the session and
writes the new `gateway` document.
-/

import ClioQueue.Gateways

namespace ClioQueue

open Durable Durable.Prog

/-! ### Attachment records -/

/-- The `state` literal of a browser attachment. -/
inductive BrowserAttachmentState where
  | starting
  | active
  | revoking
  | revoked
  | failed
  deriving DecidableEq, Repr

namespace BrowserAttachmentState

/-- The literal. -/
def value : BrowserAttachmentState → String
  | .starting => "starting"
  | .active => "active"
  | .revoking => "revoking"
  | .revoked => "revoked"
  | .failed => "failed"

/-- The state of a literal. -/
def ofValue (text : String) : Option BrowserAttachmentState :=
  [.starting, .active, .revoking, .revoked, .failed].find? fun state => state.value = text

end BrowserAttachmentState

/-- `BrowserAttachmentRecord`; its `schema_version` and `bind_addr` are constants. -/
structure BrowserAttachmentRecord where
  attachmentId : String
  state : BrowserAttachmentState
  issuedAt : String
  expiresAt : String
  revokedAt : Option String
  tokenSha256 : String
  bindPort : Int
  proxyProcessId : Option Int
  revocationPath : String
  deriving DecidableEq

section

variable [Platform]

/-- `parse_utc_timestamp` accepts a text. -/
def utcTimestamp (value : String) : Bool :=
  Platform.isoOffset (value.replace "Z" "+00:00") = some (some 0)

/-- `validate_token_digest`. -/
def canonicalSha256 (value : String) : Bool :=
  decide (value.length = 64) && value.toList.all fun c => "0123456789abcdef".toList.contains c

/-- The bounds and validators of `BrowserAttachmentRecord`. -/
def BrowserAttachmentRecord.valid (a : BrowserAttachmentRecord) : Bool :=
  decide (1 ≤ a.attachmentId.length ∧ a.attachmentId.length ≤ 256) &&
    canonicalSha256 a.tokenSha256 &&
    decide (0 < a.bindPort ∧ a.bindPort ≤ 65535) &&
    a.proxyProcessId.all (fun pid => decide (0 < pid)) &&
    utcTimestamp a.issuedAt && utcTimestamp a.expiresAt &&
    if a.state = .revoked then a.revokedAt.any utcTimestamp else a.revokedAt.isNone

/-- An instance of `BrowserAttachmentRecord`: pydantic has validated it. -/
abbrev BrowserAttachment : Type := {a : BrowserAttachmentRecord // a.valid = true}

/-- A text or `None`. -/
def Json.ofStr? : Option String → Json
  | none => .null
  | some text => .str text

/-- An integer or `None`. -/
def Json.ofInt? : Option Int → Json
  | none => .null
  | some n => .num n ""

/-- `model_dump(mode="json")`. -/
def BrowserAttachmentRecord.document (a : BrowserAttachmentRecord) : Dict :=
  [("schema_version", .str "clio-relay.browser-attachment-record.v1"),
    ("attachment_id", .str a.attachmentId),
    ("state", .str a.state.value),
    ("issued_at", .str a.issuedAt),
    ("expires_at", .str a.expiresAt),
    ("revoked_at", .ofStr? a.revokedAt),
    ("token_sha256", .str a.tokenSha256),
    ("bind_addr", .str "127.0.0.1"),
    ("bind_port", .num a.bindPort ""),
    ("proxy_process_id", .ofInt? a.proxyProcessId),
    ("revocation_path", .str a.revocationPath)]

/-- A field with one allowed text. -/
def Json.literal (text : String) (value : Json) : Option Unit :=
  if value = .str text then some () else none

/-- The typed fields of an attachment document (`extra="forbid"`, `strict=True`). -/
def BrowserAttachmentRecord.parse (d : Dict) : Option BrowserAttachmentRecord := do
  let _schema ← d.defaulted (Json.literal "clio-relay.browser-attachment-record.v1") ()
    "schema_version"
  let attachmentId ← d.required Json.str? "attachment_id"
  let state ← d.required (fun value => value.str?.bind BrowserAttachmentState.ofValue) "state"
  let issuedAt ← d.required Json.str? "issued_at"
  let expiresAt ← d.required Json.str? "expires_at"
  let revokedAt ← d.optional Json.str? "revoked_at"
  let tokenSha256 ← d.required Json.str? "token_sha256"
  let _bindAddr ← d.defaulted (Json.literal "127.0.0.1") () "bind_addr"
  let bindPort ← d.required Json.int? "bind_port"
  let proxyProcessId ← d.optional Json.int? "proxy_process_id"
  let revocationPath ← d.required Json.str? "revocation_path"
  if d.onlyHas ["schema_version", "attachment_id", "state", "issued_at", "expires_at",
      "revoked_at", "token_sha256", "bind_addr", "bind_port", "proxy_process_id",
      "revocation_path"] then
    some { attachmentId, state, issuedAt, expiresAt, revokedAt, tokenSha256, bindPort,
           proxyProcessId, revocationPath }
  else none

/-- `BrowserAttachmentRecord.model_validate`. -/
def BrowserAttachmentRecord.modelValidate (raw : Json) : Option BrowserAttachmentRecord :=
  (raw.obj?.bind parse).filter BrowserAttachmentRecord.valid

omit [Platform] in
theorem BrowserAttachmentRecord.parse_document (a : BrowserAttachmentRecord) :
    parse a.document = some a := by
  obtain ⟨_, state, _, _, revokedAt, _, _, proxyProcessId, revocationPath⟩ := a
  cases revokedAt <;> cases proxyProcessId <;> cases state <;> rfl

/-! ### Ownership of the proxy -/

/-- Fail with a conflict unless a test passes. -/
def demand (b : Bool) (message : String) : Except RelayError Unit :=
  if b then .ok () else .error (.conflict message)

/-- `_require_browser_attachment_session_ready`. -/
def requireBrowserAttachmentSessionReady (session : GatewaySession) : Except RelayError Unit := do
  demand (session.metadata.get "owner" = .str "clio-relay")
    "browser attachment requires an owned clio-relay runtime"
  demand (session.state = .ready) "browser attachment requires a ready gateway session"
  demand (Dict.get session.gateway "teardown_intent" = .null)
    "a gateway committed to teardown cannot issue attachments"
  demand (Dict.get session.gateway "jarvis_runtime_binding").obj?.isSome
    "browser attachment requires a verified JARVIS binding"
  demand (Dict.get session.gateway "runtime_spec").obj?.isSome
    "browser attachment requires an owned runtime specification"

/-- `_browser_attachment_record` with `required=False`. -/
def browserAttachmentRecord (session : GatewaySession) :
    Except RelayError (Option BrowserAttachmentRecord) :=
  match Dict.get session.gateway "browser_attachment" with
  | .null => .ok none
  | raw =>
    match BrowserAttachmentRecord.modelValidate raw with
    | none => .error (.conflict "gateway browser attachment record is invalid")
    | some a => .ok (some a)

/-- `_browser_attachment_record` with `required=True`. -/
def requiredBrowserAttachmentRecord (session : GatewaySession) :
    Except RelayError BrowserAttachmentRecord := do
  let found ← browserAttachmentRecord session
  match found with
  | none => .error (.conflict "gateway has no browser attachment")
  | some a => .ok a

/-- `_gateway_mapping`. -/
def gatewayMapping (gateway : Dict) (field : String) : Except RelayError Dict :=
  match gateway.get field with
  | .null => .ok []
  | .obj fields => .ok fields
  | _ => .error (.conflict s!"gateway {field} record is invalid")

/-- The fields that name the owner of a proxy. -/
def ownershipFields : List String := ["owner_token", "connector_generation_id", "config_path"]

/-- `_validate_browser_proxy_intent`. -/
def validateBrowserProxyIntent (intent : Dict) (attachmentId : String)
    (expectedState : Option String) : Except RelayError Unit := do
  demand (intent.get "schema_version" = .str "clio-relay.gateway-ownership-intent.v1" &&
      intent.get "attachment_id" = .str attachmentId && (intent.get "state").str?.isSome &&
      expectedState.all fun state => intent.get "state" = .str state)
    "browser proxy ownership intent identity is invalid"
  match ownershipFields.find? fun field => (intent.get field).nonemptyStr?.isNone with
  | none => .ok ()
  | some field => .error (.conflict s!"browser proxy ownership intent has no {field}")

/-- `_validate_browser_proxy_identity`. -/
def validateBrowserProxyIdentity (proxy : Dict) (attachmentId : String)
    (proxyProcessId : Option Int) : Except RelayError Unit := do
  demand (proxy.get "attachment_id" = .str attachmentId)
    "browser proxy attachment identity is invalid"
  demand (proxyProcessId.any fun pid => (proxy.get "pid").int? = some pid)
    "browser proxy process identity is invalid"

/-- The documents agree on one ownership field. -/
def ownershipAgrees (documents : List Dict) (field : String) : Bool :=
  match documents.map fun d => (d.get field).nonemptyStr? with
  | some owner :: rest => rest.all (· = some owner)
  | _ => false

/-- `_require_browser_proxy_ownership_consistent`. -/
def requireBrowserProxyOwnershipConsistent (documents : List Dict) : Except RelayError Unit :=
  match ownershipFields.find? fun field => !ownershipAgrees documents field with
  | none => .ok ()
  | some field => .error (.conflict s!"browser proxy {field} changed during transition")

/-- The capability of an attachment: everything but its lifecycle. -/
def BrowserAttachmentRecord.capability (a : BrowserAttachmentRecord) : BrowserAttachmentRecord :=
  { a with state := .starting, proxyProcessId := none, revokedAt := none }

/-- `_require_same_browser_attachment`. -/
def requireSameBrowserAttachment (current proposed : BrowserAttachmentRecord) :
    Except RelayError Unit := do
  demand (current.capability = proposed.capability)
    "browser attachment identity changed during transition"
  demand (current.proxyProcessId.all fun pid => proposed.proxyProcessId = some pid)
    "browser attachment proxy process changed during transition"

/-! ### What the operations decide -/

/-- The checks of `prepare_gateway_browser_attachment` on the slot. -/
def requireFreeSlot (existing : Option BrowserAttachmentRecord) (attachmentId : String) :
    Except RelayError Unit :=
  match existing with
  | none => .ok ()
  | some a => do
    demand (a.state = .revoked)
      s!"gateway already has a browser attachment transition: {a.attachmentId} ({a.state.value})"
    demand (a.attachmentId ≠ attachmentId) "revoked browser attachment identities cannot be reused"

/-- `prepare_gateway_browser_attachment`: the reserved slot. -/
def prepareAttachment (attachment : BrowserAttachmentRecord) (intent : Dict)
    (session : GatewaySession) : Except RelayError Dict := do
  requireBrowserAttachmentSessionReady session
  let existing ← browserAttachmentRecord session
  requireFreeSlot existing attachment.attachmentId
  let transport ← gatewayMapping session.gateway "transport"
  demand (transport.get "browser_proxy" = .null)
    "gateway has a browser proxy without an active slot"
  let intents ← gatewayMapping session.gateway "ownership_intents"
  demand ((intents.get "browser_proxy").obj?.all fun current =>
      Dict.get current "state" = .str "not_started" ||
        Dict.get current "state" = .str "absent_verified")
    "gateway browser proxy ownership is not absent"
  pure ((Dict.set session.gateway "browser_attachment" (.obj attachment.document)).set
    "ownership_intents" (.obj (intents.set "browser_proxy" (.obj intent))))

/-- `complete_gateway_browser_attachment`: the published proxy, or nothing to do. -/
def completeAttachment (attachment : BrowserAttachmentRecord) (proxy intent : Dict)
    (session : GatewaySession) : Except RelayError (Option Dict) := do
  requireBrowserAttachmentSessionReady session
  let current ← requiredBrowserAttachmentRecord session
  if current.state = .active ∧ current = attachment then pure none
  else do
    demand (current.state = .starting)
      s!"browser attachment cannot complete from {current.state.value}: {current.attachmentId}"
    requireSameBrowserAttachment current attachment
    let intents ← gatewayMapping session.gateway "ownership_intents"
    match (intents.get "browser_proxy").obj? with
    | none => .error (.conflict "browser attachment has no starting ownership intent")
    | some currentIntent => do
      validateBrowserProxyIntent currentIntent attachment.attachmentId (some "starting")
      requireBrowserProxyOwnershipConsistent [currentIntent, proxy, intent]
      let transport ← gatewayMapping session.gateway "transport"
      demand (transport.get "browser_proxy" = .null)
        "browser attachment proxy was already published"
      pure (some (((Dict.set session.gateway "browser_attachment" (.obj attachment.document)).set
        "ownership_intents" (.obj (intents.set "browser_proxy" (.obj intent)))).set
        "transport" (.obj (transport.set "browser_proxy" (.obj proxy)))))

/-- `begin_gateway_browser_attachment_revoke`: the slot in revocation, or nothing to do. -/
def beginRevoke (attachmentId : String) (session : GatewaySession) :
    Except RelayError (Option Dict) := do
  let current ← requiredBrowserAttachmentRecord session
  demand (current.attachmentId = attachmentId)
    s!"browser attachment changed before revocation: {current.attachmentId} != {attachmentId}"
  if current.state = .revoking ∨ current.state = .revoked then pure none
  else
    pure (some (Dict.set session.gateway "browser_attachment"
      (.obj { current with state := .revoking }.document)))

/-- The `gateway` document of a finished revocation. -/
def finishedRevocation (attachment : BrowserAttachmentRecord) (absentIntent : Option Dict)
    (session : GatewaySession) : Except RelayError Dict := do
  let gateway := Dict.set session.gateway "browser_attachment" (.obj attachment.document)
  match absentIntent with
  | none => pure gateway
  | some absentIntent => do
    let transport ← gatewayMapping session.gateway "transport"
    (match (transport.get "browser_proxy").obj? with
      | none => pure ()
      | some proxy =>
        validateBrowserProxyIdentity proxy attachment.attachmentId attachment.proxyProcessId)
    let intents ← gatewayMapping session.gateway "ownership_intents"
    (match (intents.get "browser_proxy").obj? with
      | none => pure ()
      | some current => do
        validateBrowserProxyIntent current attachment.attachmentId none
        requireBrowserProxyOwnershipConsistent [current, absentIntent])
    pure ((gateway.set "transport" (.obj (transport.pop "browser_proxy"))).set
      "ownership_intents" (.obj (intents.set "browser_proxy" (.obj absentIntent))))

/-- `finish_gateway_browser_attachment_revoke`: the finished slot, or nothing to do.  The
intent is there exactly when the attachment is revoked. -/
def finishRevoke (attachment : BrowserAttachmentRecord) (absentIntent : Option Dict)
    (session : GatewaySession) : Except RelayError (Option Dict) := do
  let current ← requiredBrowserAttachmentRecord session
  demand (current.attachmentId = attachment.attachmentId)
    s!"browser attachment changed before revocation completed: {current.attachmentId} != {attachment.attachmentId}"
  if current.state = .revoked ∨ (current.state = .failed ∧ attachment.state = .failed) then do
    requireSameBrowserAttachment current attachment
    pure none
  else do
    demand (current.state = .revoking || current.state = .failed && attachment.state = .revoked)
      s!"browser attachment cannot finish revocation from {current.state.value}: {current.attachmentId}"
    requireSameBrowserAttachment current attachment
    let gateway ← finishedRevocation attachment absentIntent session
    pure (some gateway)

/-- The checks of `prepare_gateway_teardown_intent` on a recorded intent. -/
def validTeardownIntent (intent : Dict) (sessionId : DurableRecordId) : Bool :=
  intent.get "schema_version" = .str "clio-relay.gateway-teardown-intent.v1" &&
    intent.get "gateway_session_id" = .str sessionId.value &&
    ((intent.get "operation_id").str?.any fun operationId =>
      operationId.startsWith "gateway_cleanup_" && (validateDurableRecordId operationId).isOk) &&
    (intent.get "created_at").str?.isSome &&
    match intent.get "cancel_scheduler_job" with
    | .bool _ => true
    | _ => false

/-- The text of a `bool`. -/
def pythonBool (b : Bool) : String := if b then "True" else "False"

/-- `prepare_gateway_teardown_intent` on a session that has an intent: it must be the
same policy. -/
def checkTeardownIntent (sessionId : DurableRecordId) (cancelSchedulerJob : Bool) (raw : Json) :
    Except RelayError Unit :=
  match raw with
  | .obj intent => do
    demand (validTeardownIntent intent sessionId) "gateway teardown intent is invalid"
    let offset := (Dict.get intent "created_at").str?.bind Platform.isoOffset
    demand offset.isSome "gateway teardown intent time is invalid"
    demand offset.join.isSome "gateway teardown intent time is naive"
    demand (Dict.get intent "cancel_scheduler_job" = .bool cancelSchedulerJob)
      s!"gateway cleanup policy changed during retry; resume with the original cancel_scheduler_job={pythonBool (!cancelSchedulerJob)} policy"
  | _ => .error (.conflict "gateway teardown intent is invalid")

/-! ### The operations -/

variable [Entropy]

/-- `_write_browser_attachment_transition_unlocked`. -/
def writeBrowserAttachmentTransition (session : GatewaySession) (gateway metadata : Dict) :
    Op GatewaySession := do
  let updatedAt ← utcNow
  let updated := { session with gateway, metadata := session.metadata.update metadata, updatedAt }
  writeGatewaySession updated
  pure updated

/-- What every transition of the slot does: replay the journal, read the session, decide, and
write what was decided. -/
def attachmentTransition (sessionId : DurableRecordId) (metadata : Dict)
    (decision : GatewaySession → Except RelayError (Option Dict)) : Op GatewaySession := do
  requireIndexMigrationComplete
  recoverPendingTransitions
  let session ← getGatewaySession sessionId
  let decided ← ofExcept (decision session)
  match decided with
  | none => pure session
  | some gateway => writeBrowserAttachmentTransition session gateway metadata

/-- `prepare_gateway_browser_attachment`. -/
def prepareGatewayBrowserAttachment (sessionId : DurableRecordId) (attachment : BrowserAttachment)
    (intent : Dict) : Op GatewaySession := do
  require (attachment.1.state = .starting)
    (.value "prepared browser attachment must be in starting state")
  ofExcept (validateBrowserProxyIntent intent attachment.1.attachmentId (some "starting"))
  attachmentTransition sessionId [] fun session => do
    let gateway ← prepareAttachment attachment.1 intent session
    pure (some gateway)

/-- `complete_gateway_browser_attachment`. -/
def completeGatewayBrowserAttachment (sessionId : DurableRecordId) (attachment : BrowserAttachment)
    (proxy intent : Dict) : Op GatewaySession := do
  require (attachment.1.state = .active && attachment.1.proxyProcessId.isSome)
    (.value "completed browser attachment must be active with a proxy pid")
  ofExcept
    (validateBrowserProxyIdentity proxy attachment.1.attachmentId attachment.1.proxyProcessId)
  ofExcept (validateBrowserProxyIntent intent attachment.1.attachmentId (some "recorded"))
  attachmentTransition sessionId [] (completeAttachment attachment.1 proxy intent)

/-- `begin_gateway_browser_attachment_revoke`. -/
def beginGatewayBrowserAttachmentRevoke (sessionId : DurableRecordId) (attachmentId : String) :
    Op GatewaySession := do
  require (attachmentId ≠ "") (.value "attachment_id must not be empty")
  attachmentTransition sessionId [] (beginRevoke attachmentId)

/-- `finish_gateway_browser_attachment_revoke`. -/
def finishGatewayBrowserAttachmentRevoke (sessionId : DurableRecordId)
    (attachment : BrowserAttachment) (absentIntent : Option Dict) (metadata : Dict) :
    Op GatewaySession := do
  require (attachment.1.state = .revoked || attachment.1.state = .failed)
    (.value "finished browser attachment must be revoked or failed")
  (match attachment.1.state, absentIntent with
    | .revoked, none =>
      raise (.value "revoked browser attachment requires an absent proxy intent")
    | .revoked, some intent =>
      ofExcept
        (validateBrowserProxyIntent intent attachment.1.attachmentId (some "absent_verified"))
    | _, some _ => raise (.value "failed browser attachment cannot claim proxy absence")
    | _, none => pure ())
  attachmentTransition sessionId metadata (finishRevoke attachment.1 absentIntent)

/-- A new teardown intent. -/
def teardownIntent (sessionId : DurableRecordId) (cancelSchedulerJob : Bool) (operation : Uuid)
    (createdAt : Time) : Dict :=
  [("schema_version", .str "clio-relay.gateway-teardown-intent.v1"),
    ("operation_id", .str s!"gateway_cleanup_{operation.hex}"),
    ("gateway_session_id", .str sessionId.value),
    ("cancel_scheduler_job", .bool cancelSchedulerJob),
    ("created_at", .str (Platform.isoformat createdAt))]

/-- What `prepare_gateway_teardown_intent` does to a session without an intent. -/
def recordTeardownIntent (sessionId : DurableRecordId) (cancelSchedulerJob : Bool)
    (session : GatewaySession) : Op GatewaySession := do
  require (session.state ≠ .closed)
    (.conflict s!"closed gateway session has no durable teardown intent: {sessionId}")
  let operation ← uuid4
  let createdAt ← utcNow
  let intent := teardownIntent sessionId cancelSchedulerJob operation createdAt
  let updatedAt ← utcNow
  let updated :=
    { session with gateway := Dict.set session.gateway "teardown_intent" (.obj intent), updatedAt }
  writeGatewaySession updated
  pure updated

/-- `prepare_gateway_teardown_intent`. -/
def prepareGatewayTeardownIntent (sessionId : DurableRecordId) (cancelSchedulerJob : Bool) :
    Op GatewaySession := do
  requireIndexMigrationComplete
  recoverPendingTransitions
  let session ← getGatewaySession sessionId
  let raw := Dict.get session.gateway "teardown_intent"
  if raw = .null then recordTeardownIntent sessionId cancelSchedulerJob session
  else do
    ofExcept (checkTeardownIntent sessionId cancelSchedulerJob raw)
    pure session

end

end ClioQueue
