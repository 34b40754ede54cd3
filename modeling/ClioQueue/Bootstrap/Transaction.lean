/-
# The activation journal

`clio_relay/bootstrap_reconcile_transaction.py`: `BootstrapTransactionState`,
`BootstrapOwnedPathIdentity`, `BootstrapOwnedPath`, `_TRANSACTION_TRANSITIONS` and
`BootstrapTransactionJournal`, the journal of one generation activation once the relay's own
environment is installed.

`advance`, `record_phase` and `complete_recovery` assign fields; only `load` validates, by
pydantic.  The conversions pydantic makes when it reads JSON (a flag written as a number or a
text, an integer written as a float or a text, a time) are `PydanticJson`; a boolean read as
an integer and an integer read as a flag are written out.  The file an activation journal is
persisted to is the document it holds, its keys sorted.
-/

import ClioQueue.Bootstrap.JournalDocument
import ClioQueue.Identifiers
import ClioQueue.JsonText

namespace ClioQueue.Bootstrap

/-- `BootstrapTransactionState`. -/
inductive TransactionState where
  | locked
  | recovering
  | inspected
  | noopVerified
  | preparing
  | prepared
  | fencing
  | fenced
  | activating
  | activated
  | migrationStarted
  | migrated
  | starting
  | serviceVerified
  | committed
  | recovered
  deriving DecidableEq, Repr

namespace TransactionState

/-- The text of a state. -/
def value : TransactionState → String
  | locked => "locked"
  | recovering => "recovering"
  | inspected => "inspected"
  | noopVerified => "noop_verified"
  | preparing => "preparing"
  | prepared => "prepared"
  | fencing => "fencing"
  | fenced => "fenced"
  | activating => "activating"
  | activated => "activated"
  | migrationStarted => "migration_started"
  | migrated => "migrated"
  | starting => "starting"
  | serviceVerified => "service_verified"
  | committed => "committed"
  | recovered => "recovered"

/-- Every state. -/
def all : List TransactionState :=
  [locked, recovering, inspected, noopVerified, preparing, prepared, fencing, fenced, activating,
    activated, migrationStarted, migrated, starting, serviceVerified, committed, recovered]

/-- The state a text names. -/
def ofValue? (text : String) : Option TransactionState :=
  all.find? fun state => state.value == text

@[simp]
theorem ofValue?_eq_some {text : String} {state : TransactionState} :
    ofValue? text = some state ↔ text = state.value := by
  constructor
  · intro h
    have hv := List.find?_some (p := fun state => value state == text) h
    exact (beq_iff_eq.1 hv).symm
  · rintro rfl
    cases state <;> rfl

/-- `_TRANSACTION_TRANSITIONS`. -/
def transactionTransitions : TransactionState → List TransactionState
  | locked => [recovering, inspected]
  | recovering => [inspected, migrationStarted, migrated, starting, serviceVerified, committed]
  | inspected => [noopVerified, preparing, fencing]
  | noopVerified => [committed]
  | preparing => [prepared]
  | prepared => [fencing, activating]
  | fencing => [fenced]
  | fenced => [activating, preparing]
  | activating => [activated]
  | activated => [migrationStarted]
  | migrationStarted => [migrated]
  | migrated => [starting, serviceVerified]
  | starting => [serviceVerified]
  | serviceVerified => [committed]
  | committed => []
  | recovered => []

/-- The states that need a prepared generation. -/
def needsPrepared : TransactionState → Bool
  | prepared | activating | activated | migrationStarted | migrated | starting | serviceVerified
  | committed => true
  | _ => false

/-- The states behind the irreversible boundary. -/
def needsBoundary : TransactionState → Bool
  | migrationStarted | migrated | starting | serviceVerified | committed => true
  | _ => false

/-- `COMMITTED` and `RECOVERED`. -/
def isTerminal : TransactionState → Bool
  | committed | recovered => true
  | _ => false

end TransactionState

/-- The modes of an activation. -/
inductive TransactionMode where
  | repair
  | relayOnly
  | componentUpgrade
  | full
  deriving DecidableEq, Repr

/-- The text of a mode. -/
def TransactionMode.value : TransactionMode → String
  | .repair => "repair"
  | .relayOnly => "relay-only"
  | .componentUpgrade => "component-upgrade"
  | .full => "full"

/-- The mode a text names. -/
def TransactionMode.ofValue? (text : String) : Option TransactionMode :=
  [TransactionMode.repair, .relayOnly, .componentUpgrade, .full].find? fun mode =>
    mode.value == text

@[simp]
theorem TransactionMode.ofValue?_eq_some {text : String} {mode : TransactionMode} :
    TransactionMode.ofValue? text = some mode ↔ text = mode.value := by
  constructor
  · intro h
    have hv := List.find?_some (p := fun mode => TransactionMode.value mode == text) h
    exact (beq_iff_eq.1 hv).symm
  · rintro rfl
    cases mode <;> rfl

/-! ### What pydantic reads -/

/-- The conversions pydantic makes on the way from JSON, and the times `datetime` reads and
writes: a time is read back from its ISO text. -/
class PydanticJson (δ : Type) where
  floatAsInt : Int → String → Option Int
  textAsInt : String → Option Int
  floatAsBool : Int → String → Option Bool
  textAsBool : String → Option Bool
  datetime : Json → Option δ
  isoformat : δ → String
  datetime_isoformat : ∀ time, datetime (.str (isoformat time)) = some time

variable {δ : Type} [PydanticJson δ]

/-- A `bool` field. -/
def readBool (δ : Type) [PydanticJson δ] : Json → Option Bool
  | .bool b => some b
  | .num n fraction =>
    if fraction = "" then if n = 0 then some false else if n = 1 then some true else none
    else PydanticJson.floatAsBool δ n fraction
  | .str text => PydanticJson.textAsBool δ text
  | _ => none

/-- An `int` field. -/
def readInt (δ : Type) [PydanticJson δ] : Json → Option Int
  | .bool b => some (if b then 1 else 0)
  | .num n fraction => if fraction = "" then some n else PydanticJson.floatAsInt δ n fraction
  | .str text => PydanticJson.textAsInt δ text
  | _ => none

/-- An `int` field with `ge=0`. -/
def readNat (δ : Type) [PydanticJson δ] (value : Json) : Option Nat :=
  (readInt δ value).bind fun n => if 0 ≤ n then some n.toNat else none

/-- A field that may be `None`. -/
def readOptional {α : Type} (read : Json → Option α) : Json → Option (Option α)
  | .null => some none
  | value => (read value).map some

/-- A text that names a member of an enumeration. -/
def readNamed {α : Type} (ofValue? : String → Option α) (value : Json) : Option α :=
  value.str?.bind ofValue?

/-- `BootstrapOwnedPathIdentity.model_validate`. -/
def readOwnedPathIdentity (δ : Type) [PydanticJson δ] (value : Json) : Option OwnedPathIdentity :=
  value.obj?.bind fun (raw : Dict) =>
    if raw.onlyHas identityFields then do
      let device ← raw.required (readNat δ) "device"
      let inode ← raw.required (readNat δ) "inode"
      let fileType ← raw.required (readNamed OwnedFileType.ofValue?) "file_type"
      let changedNs ← raw.required (readNat δ) "changed_ns"
      let size ← raw.required (readNat δ) "size"
      let sha256 ← raw.defaulted (readOptional Json.str?) none "sha256"
      let target ← raw.defaulted (readOptional Json.str?) none "symlink_target"
      if h : typeEvidence fileType sha256 target = true then
        some ⟨device, inode, fileType, changedNs, size, sha256, target, h⟩
      else none
    else none

/-- `BootstrapOwnedPath.model_validate`. -/
def readOwnedPath (δ : Type) [PydanticJson δ] (value : Json) : Option OwnedPath :=
  value.obj?.bind fun (raw : Dict) =>
    if raw.onlyHas ownedPathFields then do
      let path ← raw.required Json.str? "path"
      let kind ← raw.required (readNamed OwnedKind.ofValue?) "kind"
      let identity ← raw.defaulted (readOptional (readOwnedPathIdentity δ)) none "identity"
      if h : ownedPathMeets path kind identity = true then some ⟨path, kind, identity, h⟩
      else none
    else none

/-- The entries of a `dict[str, α]`. -/
def readEntries {α : Type} (read : Json → Option α) (value : Json) : Option (List (String × α)) :=
  value.obj?.bind fun entries => entries.mapM fun entry => (read entry.2).map fun a => (entry.1, a)

/-! ### The journal -/

/-- `BootstrapTransactionJournal`. -/
structure TransactionJournal (δ : Type) where
  invocationId : String
  desiredFingerprint : String
  mode : TransactionMode
  state : TransactionState
  startedAt : δ
  updatedAt : δ
  previousGeneration : Option String
  preparedGeneration : Option String
  serviceName : Option String
  serviceWasActive : Option Bool
  serviceWasEnabled : Option Bool
  recoveredFrom : Option TransactionState
  irreversibleBoundary : Bool
  ownedPaths : List (String × OwnedPath)
  phaseIdentities : List (String × String)

namespace TransactionJournal

/-- A name of one or more of the characters `[A-Za-z0-9_.-]`. -/
def isName (text : String) : Bool := text ≠ "" && text.toList.all identifierChar

/-- Whether `validate_generation_state` returns. -/
def validateGenerationState (journal : TransactionJournal δ) : Bool :=
  isSha256 journal.desiredFingerprint && isName journal.invocationId &&
    decide ((journal.ownedPaths.map fun entry => entry.2.path).Nodup) &&
    journal.phaseIdentities.all (fun entry => isName entry.1 && isSha256 entry.2) &&
    !(journal.state.needsPrepared && (journal.preparedGeneration.getD "") = "") &&
    !(journal.state.needsBoundary && !journal.irreversibleBoundary)

/-- `BootstrapTransactionJournal.model_validate`, with the time the defaults read. -/
def modelValidate (now : δ) (document : Json) : Option (TransactionJournal δ) :=
  document.obj?.bind fun (value : Dict) =>
    if value.onlyHas journalFields then do
      let _ ← value.defaulted
        (readNamed fun text => if text = bootstrapTransactionSchema then some () else none) ()
        "schema_version"
      let invocationId ← value.required Json.str? "invocation_id"
      let desiredFingerprint ← value.required Json.str? "desired_fingerprint"
      let mode ← value.defaulted (readNamed TransactionMode.ofValue?) .relayOnly "mode"
      let state ← value.defaulted (readNamed TransactionState.ofValue?) .locked "state"
      let startedAt ← value.defaulted PydanticJson.datetime now "started_at"
      let updatedAt ← value.defaulted PydanticJson.datetime now "updated_at"
      let previousGeneration ← value.defaulted (readOptional Json.str?) none "previous_generation"
      let preparedGeneration ← value.defaulted (readOptional Json.str?) none "prepared_generation"
      let serviceName ← value.defaulted (readOptional Json.str?) none "service_name"
      let serviceWasActive ← value.defaulted (readOptional (readBool δ)) none "service_was_active"
      let serviceWasEnabled ← value.defaulted (readOptional (readBool δ)) none "service_was_enabled"
      let recoveredFrom ← value.defaulted (readOptional (readNamed TransactionState.ofValue?)) none
        "recovered_from"
      let irreversibleBoundary ← value.defaulted (readBool δ) false "irreversible_boundary"
      let ownedPaths ← value.defaulted (readEntries (readOwnedPath δ)) [] "owned_paths"
      let phaseIdentities ← value.defaulted (readEntries Json.str?) [] "phase_identities"
      let journal : TransactionJournal δ :=
        ⟨invocationId, desiredFingerprint, mode, state, startedAt, updatedAt, previousGeneration,
          preparedGeneration, serviceName, serviceWasActive, serviceWasEnabled, recoveredFrom,
          irreversibleBoundary, ownedPaths, phaseIdentities⟩
      if journal.validateGenerationState then some journal else none
    else none

/-- `None` or a boolean, as JSON. -/
def optionalFlag : Option Bool → Json
  | none => .null
  | some b => .bool b

/-- The fields of `model_dump(mode="json")`. -/
def dumpFields (journal : TransactionJournal δ) : Dict :=
  [("schema_version", .str bootstrapTransactionSchema),
    ("invocation_id", .str journal.invocationId),
    ("desired_fingerprint", .str journal.desiredFingerprint),
    ("mode", .str journal.mode.value),
    ("state", .str journal.state.value),
    ("started_at", .str (PydanticJson.isoformat journal.startedAt)),
    ("updated_at", .str (PydanticJson.isoformat journal.updatedAt)),
    ("previous_generation", optionalText journal.previousGeneration),
    ("prepared_generation", optionalText journal.preparedGeneration),
    ("service_name", optionalText journal.serviceName),
    ("service_was_active", optionalFlag journal.serviceWasActive),
    ("service_was_enabled", optionalFlag journal.serviceWasEnabled),
    ("recovered_from", optionalText (journal.recoveredFrom.map TransactionState.value)),
    ("irreversible_boundary", .bool journal.irreversibleBoundary),
    ("owned_paths", .obj (journal.ownedPaths.map fun entry => (entry.1, .obj entry.2.toDict))),
    ("phase_identities", .obj (journal.phaseIdentities.map fun entry => (entry.1, .str entry.2)))]

/-- `persist`: the document the file holds. -/
def persist (journal : TransactionJournal δ) : Json := (Json.obj journal.dumpFields).sortKeys

/-- `load` of a file that holds a document. -/
def load (path : String) (now : δ) (document : Json) : Except RelayError (TransactionJournal δ) :=
  if document.fileBytes ≤ maxJournalBytes then
    match modelValidate now document with
    | some journal => .ok journal
    | none => .error (.configuration s!"bootstrap transaction journal is invalid: {path}")
  else .error (.configuration s!"state file is not one bounded regular file: {path}")

/-! ### The methods -/

/-- `advance`, at the time `now`. -/
def advance (journal : TransactionJournal δ) (state : TransactionState) (now : δ) :
    Except RelayError (TransactionJournal δ) :=
  if state ∈ journal.state.transactionTransitions then
    .ok { journal with
      state
      irreversibleBoundary := journal.irreversibleBoundary || state = .migrationStarted ||
        (state = .activating && journal.mode ≠ .full)
      updatedAt := now }
  else .error (.configuration (
    "invalid bootstrap transaction transition: " ++ journal.state.value ++ " -> " ++ state.value))

/-- `complete_recovery`. -/
def completeRecovery (journal : TransactionJournal δ) (now : δ) :
    Except RelayError (TransactionJournal δ) :=
  if journal.state.isTerminal then
    .error (.configuration "a terminal bootstrap transaction cannot be recovered")
  else .ok { journal with
    recoveredFrom := some (journal.recoveredFrom.getD journal.state)
    state := .recovered
    updatedAt := now }

/-- `dict[key] = text`. -/
def setEntry : List (String × String) → String → String → List (String × String)
  | [], key, value => [(key, value)]
  | (k, v) :: rest, key, value =>
    if k = key then (k, value) :: rest else (k, v) :: setEntry rest key value

/-- `record_phase`. -/
def recordPhase (journal : TransactionJournal δ) (phase identity : String) (now : δ) :
    Except RelayError (TransactionJournal δ) :=
  if journal.state.isTerminal then
    .error (.configuration "a terminal bootstrap transaction cannot record a phase")
  else if !isName phase then .error (.configuration "bootstrap phase name is invalid")
  else if !isSha256 identity then
    .error (.value s!"phase_identities.{phase} must contain one lowercase SHA-256 digest")
  else if (journal.phaseIdentities.lookup phase).any (· ≠ identity) then
    .error (.configuration s!"bootstrap phase identity changed: {phase}")
  else .ok { journal with
    phaseIdentities := setEntry journal.phaseIdentities phase identity
    updatedAt := now }

/-- `recovery_mode`. -/
def recoveryMode (journal : TransactionJournal δ) : String :=
  if journal.state.isTerminal then "none"
  else if journal.irreversibleBoundary then "forward"
  else if journal.mode = .full then "discard"
  else if journal.state = .activated ∨ journal.state = .activating then "rollback"
  else "discard"

end TransactionJournal

end ClioQueue.Bootstrap
