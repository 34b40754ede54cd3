/-
# The bootstrap journal document

`clio_relay/bootstrap_journal.py`: the transition table and the validation of the journal of a
first install (`_TRANSITIONS`, `_validate_journal`, `_coerce_owned_paths`,
`_coerce_owned_identity`, `_coerce_phase_identities`, `_recovery_mode`).

The module uses the standard library only, so a journal is the dictionary `json.loads` returns,
and every operation validates it again before it is written.
-/

import ClioQueue.Bootstrap.Paths
import ClioQueue.Json

namespace ClioQueue.Bootstrap

/-- The exceptions of the module: `BootstrapJournalError`, the `TypeError` of a set lookup with a
list or a dictionary, and an `OSError` that is passed on. -/
inductive JournalError where
  | journal (message : String)
  | type (message : String)
  | os (message : String)
  deriving DecidableEq, Repr

/-- `BOOTSTRAP_TRANSACTION_SCHEMA`. -/
def bootstrapTransactionSchema : String := "clio-relay.bootstrap-transaction.v1"

/-- `MAX_JOURNAL_BYTES`. -/
def maxJournalBytes : Nat := 1024 * 1024

/-- The characters `[A-Za-z0-9_.-]`. -/
def identifierChar (c : Char) : Bool :=
  ('A' ≤ c && c ≤ 'Z') || ('a' ≤ c && c ≤ 'z') || ('0' ≤ c && c ≤ '9') ||
    c == '_' || c == '.' || c == '-'

/-- A full match of `_IDENTIFIER`. -/
def isIdentifier (text : String) : Bool :=
  text.toList.all identifierChar && decide (1 ≤ text.toList.length) &&
    decide (text.toList.length ≤ 160)

/-- A full match of `_SHA256`. -/
def isSha256 (text : String) : Bool :=
  decide (text.toList.length = 64) &&
    text.toList.all fun c => ('0' ≤ c && c ≤ '9') || ('a' ≤ c && c ≤ 'f')

/-! ### States and modes -/

/-- The modes of a transaction. -/
def transactionModes : List String := ["full", "relay-only", "component-upgrade", "repair"]

/-- `_TERMINAL_STATES`. -/
def terminalStates : List String := ["committed", "recovered"]

/-- `_TRANSITIONS`. -/
def transitions : List (String × List String) :=
  [("locked", ["recovering", "inspected"]),
    ("recovering",
      ["inspected", "migration_started", "migrated", "starting", "service_verified", "committed"]),
    ("inspected", ["noop_verified", "preparing", "fencing"]),
    ("noop_verified", ["committed"]),
    ("preparing", ["prepared"]),
    ("prepared", ["fencing", "activating"]),
    ("fencing", ["fenced"]),
    ("fenced", ["activating", "preparing"]),
    ("activating", ["activated"]),
    ("activated", ["migration_started"]),
    ("migration_started", ["migrated"]),
    ("migrated", ["starting", "service_verified"]),
    ("starting", ["service_verified"]),
    ("service_verified", ["committed"]),
    ("committed", []),
    ("recovered", [])]

/-- The states that need a prepared generation. -/
def preparedStates : List String :=
  ["prepared", "activating", "activated", "migration_started", "migrated", "starting",
    "service_verified", "committed"]

/-- The states behind the irreversible boundary. -/
def boundaryStates : List String :=
  ["migration_started", "migrated", "starting", "service_verified", "committed"]

/-! ### Owned paths -/

/-- `_KINDS`. -/
inductive OwnedKind where
  | directory
  | file
  | fileOrSymlink
  | symlink
  deriving DecidableEq, Repr

/-- The text of a kind. -/
def OwnedKind.value : OwnedKind → String
  | .directory => "directory"
  | .file => "file"
  | .fileOrSymlink => "file_or_symlink"
  | .symlink => "symlink"

/-- The kind a text names. -/
def OwnedKind.ofValue? (text : String) : Option OwnedKind :=
  [OwnedKind.directory, .file, .fileOrSymlink, .symlink].find? fun kind => kind.value == text

/-- The type of an entry that was created. -/
inductive OwnedFileType where
  | directory
  | file
  | symlink
  deriving DecidableEq, Repr

/-- The text of a type. -/
def OwnedFileType.value : OwnedFileType → String
  | .directory => "directory"
  | .file => "file"
  | .symlink => "symlink"

/-- The type a text names. -/
def OwnedFileType.ofValue? (text : String) : Option OwnedFileType :=
  [OwnedFileType.directory, .file, .symlink].find? fun fileType => fileType.value == text

@[simp]
theorem OwnedKind.ofValue?_eq_some {text : String} {kind : OwnedKind} :
    OwnedKind.ofValue? text = some kind ↔ text = kind.value := by
  constructor
  · intro h
    have hv := List.find?_some (p := fun kind => OwnedKind.value kind == text) h
    exact (beq_iff_eq.1 hv).symm
  · rintro rfl
    cases kind <;> rfl

@[simp]
theorem OwnedFileType.ofValue?_eq_some {text : String} {fileType : OwnedFileType} :
    OwnedFileType.ofValue? text = some fileType ↔ text = fileType.value := by
  constructor
  · intro h
    have hv := List.find?_some (p := fun fileType => OwnedFileType.value fileType == text) h
    exact (beq_iff_eq.1 hv).symm
  · rintro rfl
    cases fileType <;> rfl

/-- The content evidence each type carries: a digest for a file, a target for a link. -/
def typeEvidence (fileType : OwnedFileType) (sha256 symlinkTarget : Option String) : Bool :=
  match fileType with
  | .file => sha256.any isSha256 && symlinkTarget.isNone
  | .symlink => sha256.isNone && symlinkTarget.isSome
  | .directory => sha256.isNone && symlinkTarget.isNone

/-- The recorded identity of a path that the transaction created. -/
structure OwnedPathIdentity where
  device : Nat
  inode : Nat
  fileType : OwnedFileType
  changedNs : Nat
  size : Nat
  sha256 : Option String
  symlinkTarget : Option String
  evidence : typeEvidence fileType sha256 symlinkTarget = true
  deriving DecidableEq

/-- `_kind_accepts_identity`. -/
def kindAccepts : OwnedKind → OwnedFileType → Bool
  | .directory, fileType => fileType = .directory
  | .file, fileType => fileType = .file
  | .symlink, fileType => fileType = .symlink
  | .fileOrSymlink, fileType => fileType = .file ∨ fileType = .symlink

/-- An absolute normalized path without control characters, whose kind admits its identity. -/
def ownedPathMeets (path : String) (kind : OwnedKind) (identity : Option OwnedPathIdentity) :
    Bool :=
  isNormalizedAbsolute path && !hasControl path &&
    identity.all fun found => kindAccepts kind found.fileType

/-- A path proven absent before the transaction. -/
structure OwnedPath where
  path : String
  kind : OwnedKind
  identity : Option OwnedPathIdentity
  valid : ownedPathMeets path kind identity = true
  deriving DecidableEq

/-- A string, or `null`. -/
def optionalText : Option String → Json
  | none => .null
  | some text => .str text

/-- The fields of an identity. -/
def OwnedPathIdentity.toDict (identity : OwnedPathIdentity) : Dict :=
  [("device", .num identity.device ""), ("inode", .num identity.inode ""),
    ("file_type", .str identity.fileType.value), ("changed_ns", .num identity.changedNs ""),
    ("size", .num identity.size ""), ("sha256", optionalText identity.sha256),
    ("symlink_target", optionalText identity.symlinkTarget)]

/-- An identity, or `None`. -/
def identityJson : Option OwnedPathIdentity → Json
  | none => .null
  | some identity => .obj identity.toDict

/-- The fields of an owned path. -/
def OwnedPath.toDict (owned : OwnedPath) : Dict :=
  [("path", .str owned.path), ("kind", .str owned.kind.value),
    ("identity", identityJson owned.identity)]

/-! ### Validation -/

/-- Raise a `BootstrapJournalError` unless `condition` holds. -/
def ensure (condition : Bool) (message : String) : Except JournalError Unit :=
  if condition then .ok () else .error (.journal message)

/-- `_string`. -/
def string (value : Dict) (field : String) : Except JournalError String :=
  match (value.get field).str? with
  | some text => .ok text
  | none => .error (.journal s!"bootstrap {field} is invalid")

/-- `value in names`, a lookup by hash. -/
def memberOf (names : List String) : Json → Except JournalError Bool
  | .str text => .ok (names.contains text)
  | .arr _ => .error (.type "unhashable type: 'list'")
  | .obj _ => .error (.type "unhashable type: 'dict'")
  | _ => .ok false

/-- The numbers of an identity: integers that are not negative. -/
def identityNumber (raw : Dict) (field : String) : Except JournalError Nat :=
  match (raw.get field).int? with
  | some (.ofNat n) => .ok n
  | _ => .error (.journal "bootstrap owned path identity is invalid")

/-- The fields of an identity. -/
def identityFields : List String :=
  ["device", "inode", "file_type", "changed_ns", "size", "sha256", "symlink_target"]

/-- The fields of an owned path; the last one may be missing. -/
def ownedPathFields : List String := ["path", "kind", "identity"]

/-- `set(value) == names`. -/
def hasExactly (value : Dict) (names : List String) : Bool :=
  value.onlyHas names && names.all value.has

/-- The evidence of an identity with its type, and the refusal for the type. -/
def coerceEvidence (fileType : OwnedFileType) (sha256 symlinkTarget : Json) :
    Except JournalError (Option String × Option String) :=
  match fileType, sha256, symlinkTarget with
  | .file, .str digest, .null =>
    if isSha256 digest then .ok (some digest, none)
    else .error (.journal "bootstrap owned file identity is invalid")
  | .file, _, _ => .error (.journal "bootstrap owned file identity is invalid")
  | .symlink, .null, .str target =>
    if target.toList.contains '\x00' then
      .error (.journal "bootstrap owned symlink identity is invalid")
    else .ok (none, some target)
  | .symlink, _, _ => .error (.journal "bootstrap owned symlink identity is invalid")
  | .directory, .null, .null => .ok (none, none)
  | .directory, _, _ => .error (.journal "bootstrap owned directory identity is invalid")

theorem coerceEvidence_ok {fileType : OwnedFileType} {sha256 target : Json}
    {evidence : Option String × Option String}
    (h : coerceEvidence fileType sha256 target = .ok evidence) :
    typeEvidence fileType evidence.1 evidence.2 = true := by
  unfold coerceEvidence at h
  split at h
  · split_ifs at h with hdig
    cases h
    simpa [typeEvidence] using hdig
  · cases h
  · split_ifs at h
    cases h
    rfl
  · cases h
  · cases h
    rfl
  · cases h

/-- `_coerce_owned_identity`. -/
def coerceOwnedIdentity : Json → Except JournalError (Option OwnedPathIdentity)
  | .null => .ok none
  | .obj raw => do
    ensure (hasExactly raw identityFields) "bootstrap owned path identity is invalid"
    let device ← identityNumber raw "device"
    let inode ← identityNumber raw "inode"
    let changedNs ← identityNumber raw "changed_ns"
    let size ← identityNumber raw "size"
    let known ← memberOf ["directory", "file", "symlink"] (Dict.get raw "file_type")
    ensure known "bootstrap owned path identity is invalid"
    match (Dict.get raw "file_type").str?.bind OwnedFileType.ofValue? with
    | none => .error (.journal "bootstrap owned path identity is invalid")
    | some fileType =>
      match h : coerceEvidence fileType (Dict.get raw "sha256") (Dict.get raw "symlink_target") with
      | .error error => .error error
      | .ok (sha256, target) =>
        .ok (some ⟨device, inode, fileType, changedNs, size, sha256, target, coerceEvidence_ok h⟩)
  | _ => .error (.journal "bootstrap owned path identity is invalid")

/-- The path of an item: a string. -/
def itemPath (item : Dict) : Except JournalError String :=
  match (item.get "path").str? with
  | some path => .ok path
  | none => .error (.journal "bootstrap owned path is invalid")

/-- One entry of `_coerce_owned_paths`, with the paths seen before it. -/
def coerceOwnedPath (name : String) (rawItem : Json) (observed : List String) :
    Except JournalError OwnedPath := do
  let item : Dict := (rawItem.obj?).getD []
  ensure (isIdentifier name) "bootstrap owned path name is invalid"
  ensure (hasExactly item ["path", "kind"] || hasExactly item ownedPathFields)
    "bootstrap owned path record is invalid"
  let path ← itemPath item
  ensure (!hasControl path) "bootstrap owned path is invalid"
  ensure ((Path.ofString path).isAbsolute && !(Path.ofString path).names.contains "..")
    "bootstrap owned path must be absolute and normalized"
  ensure (normpath path.toList == path.toList && !observed.contains path)
    "bootstrap owned path identity is ambiguous"
  let known ← memberOf ["directory", "file", "file_or_symlink", "symlink"] (Dict.get item "kind")
  ensure known "bootstrap owned path kind is invalid"
  match (Dict.get item "kind").str?.bind OwnedKind.ofValue? with
  | none => .error (.journal "bootstrap owned path kind is invalid")
  | some kind => do
    let identity ← coerceOwnedIdentity (Dict.get item "identity")
    -- The path has been checked above: what may still fail is the kind.
    if h : ownedPathMeets path kind identity = true then pure ⟨path, kind, identity, h⟩
    else .error (.journal "bootstrap owned path kind and identity disagree")

/-- The loop of `_coerce_owned_paths`. -/
def coerceOwnedEntries : Dict → (observed : List String) →
    Except JournalError (List (String × OwnedPath))
  | [], _ => .ok []
  | (name, rawItem) :: rest, observed => do
    let owned ← coerceOwnedPath name rawItem observed
    let others ← coerceOwnedEntries rest (owned.path :: observed)
    pure ((name, owned) :: others)

/-- `_coerce_owned_paths`. -/
def coerceOwnedPaths : Json → Except JournalError (List (String × OwnedPath))
  | .obj entries => do
    ensure (decide (entries.length ≤ 128)) "bootstrap owned path count exceeds its bound"
    coerceOwnedEntries entries []
  | _ => .error (.journal "bootstrap owned paths are invalid")

/-- The loop of `_coerce_phase_identities`. -/
def coercePhaseEntries : Dict → Except JournalError (List (String × String))
  | [] => .ok []
  | (phase, .str identity) :: rest => do
    ensure (isIdentifier phase && isSha256 identity) "bootstrap phase identity is invalid"
    let others ← coercePhaseEntries rest
    pure ((phase, identity) :: others)
  | _ :: _ => .error (.journal "bootstrap phase identity is invalid")

/-- `_coerce_phase_identities`. -/
def coercePhaseIdentities : Json → Except JournalError (List (String × String))
  | .obj entries => do
    ensure (!entries.isEmpty) "bootstrap phase identities are invalid"
    coercePhaseEntries entries
  | _ => .error (.journal "bootstrap phase identities are invalid")

/-- The fields of a journal. -/
def journalFields : List String :=
  ["schema_version", "invocation_id", "desired_fingerprint", "mode", "state", "started_at",
    "updated_at", "previous_generation", "prepared_generation", "service_name",
    "service_was_active", "service_was_enabled", "recovered_from", "irreversible_boundary",
    "owned_paths", "phase_identities"]

/-- `None` or a boolean. -/
def isOptionalBool : Json → Bool
  | .null | .bool _ => true
  | _ => false

/-- `None` or a string with a property. -/
def isOptionalText (accepts : String → Bool) : Json → Bool
  | .null => true
  | .str text => accepts text
  | _ => false

/-- The states of `_TRANSITIONS`. -/
def knownStates : List String := transitions.map Prod.fst

/-- Whether `value["recovered_from"]` is `None` or names a state. -/
def knowsRecovered (recovered : Json) : Except JournalError Bool :=
  if recovered = .null then .ok true else memberOf knownStates recovered

/-- `_validate_journal`. -/
def validateJournal (value : Dict) : Except JournalError Unit := do
  ensure (hasExactly value journalFields) "bootstrap transaction journal fields are invalid"
  ensure (value.get "schema_version" = .str bootstrapTransactionSchema)
    "bootstrap transaction journal schema is invalid"
  let invocation ← string value "invocation_id"
  ensure (isIdentifier invocation) "bootstrap invocation identity is invalid"
  let fingerprint ← string value "desired_fingerprint"
  ensure (isSha256 fingerprint) "bootstrap desired fingerprint is invalid"
  let knownMode ← memberOf transactionModes (value.get "mode")
  ensure knownMode "bootstrap transaction mode is invalid"
  let state ← string value "state"
  ensure (knownStates.contains state) "bootstrap transaction state is invalid"
  let knownRecovered ← knowsRecovered (value.get "recovered_from")
  ensure knownRecovered "bootstrap recovered state is invalid"
  ensure (isOptionalBool (value.get "service_was_active")) "bootstrap service_was_active is invalid"
  ensure (isOptionalBool (value.get "service_was_enabled"))
    "bootstrap service_was_enabled is invalid"
  ensure (isOptionalBool (value.get "irreversible_boundary") &&
      value.get "irreversible_boundary" ≠ .null)
    "bootstrap irreversible boundary is invalid"
  ensure (isOptionalText isSha256 (value.get "prepared_generation"))
    "prepared generation identity is invalid"
  ensure (!(preparedStates.contains state && value.get "prepared_generation" = .null))
    "prepared generation is required after preparation"
  ensure (!(boundaryStates.contains state && value.get "irreversible_boundary" ≠ .bool true))
    "queue migration state omitted its irreversible boundary"
  let _ ← coerceOwnedPaths (value.get "owned_paths")
  let _ ← coercePhaseIdentities (value.get "phase_identities")
  pure ()

/-- `_recovery_mode`. -/
def recoveryMode (value : Dict) : Except JournalError String := do
  let state ← string value "state"
  if terminalStates.contains state then pure "none"
  else if value.get "irreversible_boundary" = .bool true then pure "forward"
  else if value.get "mode" = .str "full" then pure "discard"
  else if ["activating", "activated"].contains state then pure "rollback"
  else pure "discard"

/-- What `_load_journal_at` makes of the value `json.loads` has returned. -/
def loadValue : Json → Except JournalError Dict
  | .obj value => do
    validateJournal value
    pure value
  | _ => .error (.journal "bootstrap transaction journal must contain one object")

/-- The prepared generation of `advance_journal`: one for the step into `prepared`, none for any
other. -/
def assignPrepared (value : Dict) (state : String) (preparedGeneration : Option String) :
    Except JournalError Dict :=
  match decide (state = "prepared"), preparedGeneration with
  | true, some generation =>
    if isSha256 generation then .ok (value.set "prepared_generation" (.str generation))
    else .error (.journal "prepared generation identity is invalid")
  | true, none => .error (.journal "prepared generation identity is invalid")
  | false, some _ =>
    .error (.journal "prepared generation is only valid for prepared state")
  | false, none => .ok value

/-- The edit of `advance_journal`, at the time `now`. -/
def advanceValue (value : Dict) (state : String) (preparedGeneration : Option String)
    (now : String) : Except JournalError Dict := do
  let current ← string value "state"
  ensure (((transitions.lookup current).getD []).contains state)
    s!"invalid bootstrap transaction transition: {current} -> {state}"
  let value ← assignPrepared value state preparedGeneration
  let value := value.set "state" (.str state)
  let value := if state = "migration_started" then value.set "irreversible_boundary" (.bool true)
    else value
  let value := value.set "updated_at" (.str now)
  validateJournal value
  pure value

end ClioQueue.Bootstrap
