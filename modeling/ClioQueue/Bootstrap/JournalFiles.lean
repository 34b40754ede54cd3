/-
# The journal on disk

`clio_relay/bootstrap_journal.py`, on POSIX: how a journal is opened, loaded and replaced
(`_open_absolute_directory`, `_open_journal_parent`, `_read_regular_at`, `_load_journal_at`,
`_atomic_json_at`) and the operations on the document alone: `create_journal`, `load_journal`,
`advance_journal`, `record_phase` and `recovery_plan`.

Nothing else acts during a call, so a check that reads again what the same call has read before
appears once.  A descriptor is the place at which a directory was opened with its identity, and a
check that a path still leads there compares the two.  A file written by `json.dumps` keeps its
document, with sorted keys; the text of any other file is read by `Host.loads`.
-/

import ClioQueue.Bootstrap.JournalDocument
import ClioQueue.Durable.FileTree
import ClioQueue.Durable.Program
import ClioQueue.JsonText
import Mathlib.Data.Stream.Defs

namespace ClioQueue.Bootstrap

open Durable

/-- The content of a file: the text of a document with sorted keys, or other bytes. -/
inductive FileContent where
  | document (value : Json)
  | bytes (raw : List UInt8)
  deriving DecidableEq

namespace FileContent

def size : FileContent → Nat
  | document value => Json.fileBytes value
  | bytes raw => raw.length

def raw : FileContent → List UInt8
  | document value => (Json.dumps 0 value ++ ['\n']).map fun c => UInt8.ofNat c.toNat
  | bytes raw => raw

end FileContent

/-- The machine: the user, the prefix the site owns and where it really is, SHA-256, and
`json.loads` on the texts that this module has not written. -/
structure Host where
  uid : Nat
  sitePrefix : Path
  realPrefix : Path
  sha256 : List UInt8 → String
  loads : List UInt8 → Except JournalError Json

/-- What the kernel, the clock and the random generator choose at one step. -/
structure Chance where
  device : Nat
  inode : Nat
  changedNs : Int
  size : Nat
  directory : FileTree.Stamp
  text : String

/-- A disk. -/
abbrev Disk : Type := FileTree FileContent

/-- A call. -/
abbrev JournalProg (α : Type) : Type := Prog Disk (Stream' Chance) JournalError α

/-- Draw the next choice. -/
def chance : JournalProg Chance := .draw fun supply => (supply.head, supply.tail)

/-- `FileNotFoundError`. -/
def fileNotFound : JournalError := .os "No such file or directory"

/-- Raise a `BootstrapJournalError` unless `condition` holds. -/
def demand (condition : Bool) (message : String) : JournalProg Unit :=
  .require condition (.journal message)

/-! ### Directories -/

/-- The directory a descriptor stands for: the place and the identity found there. -/
structure Descriptor where
  place : Place
  device : Nat
  inode : Nat
  deriving DecidableEq

/-- Whether a path is absolute, normalized and without `..`. -/
def Path.isNormalized (path : Path) : Bool :=
  path.isAbsolute && normpath path.toString.toList == path.toString.toList &&
    !path.names.contains ".."

/-- `_normalized_absolute`. -/
def normalizedAbsolute (path : Path) (description : String) : Except JournalError Path :=
  if path.isNormalized then .ok path
  else .error (.journal s!"{description} must be absolute and normalized")

/-- `_resolve_site_prefix`: only the prefix is resolved. -/
def resolveSitePrefix (host : Host) (path : Path) : Path :=
  match path.relativeTo host.sitePrefix with
  | none => path
  | some remainder => host.realPrefix.join remainder

/-- A directory at a place, as a descriptor of it. -/
def openAt (place : Place) : JournalProg Descriptor := do
  match ← .look fun disk => disk.find place with
  | none => .raise fileNotFound
  | some entry => pure ⟨place, entry.stat.device, entry.stat.inode⟩

/-- Create the missing directories on the way to a place. -/
def makeDirectories (host : Host) : (opened : Place) → (names : List String) → JournalProg Unit
  | _, [] => pure ()
  | opened, name :: names => do
    let place := opened ++ [name]
    let found ← .look fun disk => disk.find place
    let c ← chance
    if found.isNone then
      .durably fun disk => disk.create place
        ⟨⟨c.device, c.inode, c.changedNs, c.size, host.uid, 0o700, 2⟩, .directory⟩ c.directory
    makeDirectories host place names

/-- The refusal of a walk in `_open_absolute_directory`. -/
def topologyError (path : Path) : WalkError → JournalError
  | .missing => fileNotFound
  | .notDirectory => .journal s!"bootstrap directory topology is unsafe: {path.toString}"

/-- `_open_absolute_directory`. -/
def openAbsoluteDirectory (host : Host) (path : Path) : JournalProg Descriptor := do
  let normalized ← .ofExcept (normalizedAbsolute path "bootstrap directory")
  let resolved := resolveSitePrefix host normalized
  let opened ← .look fun disk => disk.walk [] resolved.names
  let place ← .ofExcept (opened.mapError (topologyError resolved))
  openAt place

/-- `_open_absolute_directory(create=True)`; an unsafe name stands before every missing one. -/
def createAbsoluteDirectory (host : Host) (path : Path) : JournalProg Descriptor := do
  let normalized ← .ofExcept (normalizedAbsolute path "bootstrap directory")
  let resolved := resolveSitePrefix host normalized
  match ← .look fun disk => disk.walk [] resolved.names with
  | .error .notDirectory => .raise (topologyError resolved .notDirectory)
  | _ => makeDirectories host [] resolved.names
  openAbsoluteDirectory host path

/-- Whether the entry at a place is the directory of a descriptor. -/
def Descriptor.isAt (descriptor : Descriptor) (place : Place) (disk : Disk) : Bool :=
  match disk.find place with
  | none => false
  | some entry => entry.isDirectory && entry.stat.device == descriptor.device &&
      entry.stat.inode == descriptor.inode

/-- The check of the mode and the owner of a journal's directory. -/
def isPrivateDirectory (host : Host) (entry : Option (Entry FileContent)) : Bool :=
  entry.any fun e => e.isDirectory && e.stat.uid == host.uid && e.stat.mode &&& 0o077 == 0

/-- The end of `_open_journal_parent`: the path still leads to the directory. -/
def verifyParent (host : Host) (parent : Path) (descriptor : Descriptor) : JournalProg Unit := do
  let changed := JournalError.journal "bootstrap journal parent identity changed"
  let observed ← .mapError (fun _ => changed) (openAbsoluteDirectory host parent)
  let same ← .look (descriptor.isAt observed.place)
  .require same changed

/-- A `FileNotFoundError` anywhere below `_open_journal_parent`. -/
def parentMissing (error : JournalError) : JournalError :=
  if error = fileNotFound then .journal "bootstrap journal parent does not exist" else error

/-- `_open_journal_parent`, around the body of a call. -/
def withJournalParent {α : Type} (host : Host) (path : Path)
    (openParent : Path → JournalProg Descriptor) (body : Descriptor → JournalProg α) :
    JournalProg α := do
  let normalized ← .ofExcept (normalizedAbsolute path "bootstrap transaction journal")
  demand (normalized.name ≠ "" && normalized.name ≠ "." && normalized.name ≠ "..")
    "bootstrap transaction journal name is invalid"
  .mapError parentMissing do
    let descriptor ← openParent normalized.parent
    let entry ← .look fun disk => disk.find descriptor.place
    demand (isPrivateDirectory host entry) "bootstrap journal parent must be owner-private"
    .finish (body descriptor) (verifyParent host normalized.parent descriptor)

/-! ### The journal file -/

/-- The device and inode of the journal file. -/
abbrev FileIdentity : Type := Nat × Nat

/-- `_require_private_regular`. -/
def requirePrivateRegular (host : Host) (entry : Entry FileContent) :
    Except JournalError FileContent :=
  match entry.body with
  | .file content =>
    if entry.stat.links == 1 && entry.stat.uid == host.uid && entry.stat.mode &&& 0o077 == 0 then
      .ok content
    else .error (.journal "bootstrap transaction journal is not owner-private")
  | _ => .error (.journal "bootstrap transaction journal is not owner-private")

/-- `_journal_identity_if_present`. -/
def journalIdentityIfPresent (host : Host) :
    Option (Entry FileContent) → Except JournalError (Option FileIdentity)
  | none => .ok none
  | some entry => do
    let _ ← requirePrivateRegular host entry
    pure (some (entry.stat.device, entry.stat.inode))

/-- `_read_regular_at`: a missing file and a link are an `OSError`, which is translated. -/
def readRegular (host : Host) : Option (Entry FileContent) →
    Except JournalError (FileContent × FileIdentity)
  | none | some ⟨_, .symlink _⟩ => .error (.journal "bootstrap transaction journal is invalid")
  | some entry => do
    let content ← requirePrivateRegular host entry
    ensure (1 ≤ content.size && content.size ≤ maxJournalBytes)
      "bootstrap transaction journal size is invalid"
    pure (content, entry.stat.device, entry.stat.inode)

/-- `json.loads` on the text of a file. -/
def Host.parse (host : Host) : FileContent → Except JournalError Json
  | .document value => .ok value
  | .bytes raw => host.loads raw

/-- `_load_journal_at`, on the entry. -/
def loadEntry (host : Host) (entry : Option (Entry FileContent)) :
    Except JournalError (Dict × FileIdentity) := do
  let (content, identity) ← readRegular host entry
  let value ← host.parse content
  let journal ← loadValue value
  pure (journal, identity)

/-- `_load_journal_at`. -/
def loadJournalAt (host : Host) (parent : Descriptor) (name : String) :
    JournalProg (Dict × FileIdentity) := do
  let entry ← .look fun disk => disk.find (parent.place ++ [name])
  .ofExcept (loadEntry host entry)

/-- The name of the temporary file. -/
def temporaryName (name random : String) : String := "." ++ name ++ "." ++ random ++ ".tmp"

/-- `os.unlink` with a missing file suppressed. -/
def unlinkIfPresent (place : Place) : JournalProg Unit := do
  let found ← .look fun disk => disk.find place
  let c ← chance
  if found.isSome then .durably fun disk => disk.unlink place c.directory

/-- The staging and the replacement of `_atomic_json_at`. -/
def replaceJournal (host : Host) (parent : Descriptor) (name temporary : String)
    (content : FileContent) (expected : Option FileIdentity) : JournalProg Unit := do
  let staged := parent.place ++ [temporary]
  let journal := parent.place ++ [name]
  let existing ← .look fun disk => disk.find staged
  .require existing.isNone (.os "File exists")
  let c ← chance
  .durably fun disk => disk.create staged
    ⟨⟨c.device, c.inode, c.changedNs, 0, host.uid, 0o600, 1⟩, .file (.bytes [])⟩ c.directory
  let c ← chance
  .durably fun disk => disk.write staged content c.changedNs
  let entry ← .look fun disk => disk.find journal
  let observed ← .ofExcept (journalIdentityIfPresent host entry)
  demand (observed == expected) "bootstrap transaction journal identity changed"
  let c ← chance
  .durably fun disk => disk.rename staged journal c.changedNs c.directory
  let entry ← .look fun disk => disk.find journal
  let published ← .ofExcept (journalIdentityIfPresent host entry)
  demand published.isSome "bootstrap transaction journal publication failed"

/-- `_atomic_json_at`. -/
def atomicJsonAt (host : Host) (parent : Descriptor) (name : String) (value : Dict)
    (expected : Option FileIdentity) : JournalProg Unit := do
  let c ← chance
  let temporary := temporaryName name c.text
  .finish
    (replaceJournal host parent name temporary (.document (Json.sortKeys (.obj value))) expected)
    (unlinkIfPresent (parent.place ++ [temporary]))

/-- Load the journal, edit it and write what the edit has validated. -/
def editJournal (host : Host) (path : Path) (edit : Descriptor → Dict → JournalProg Dict) :
    JournalProg Dict :=
  withJournalParent host path (openAbsoluteDirectory host) fun parent => do
    let (value, identity) ← loadJournalAt host parent path.name
    let edited ← edit parent value
    atomicJsonAt host parent path.name edited (some identity)
    pure edited

/-! ### The operations on the document -/

/-- `load_journal`. -/
def loadJournal (host : Host) (path : Path) : JournalProg Dict :=
  withJournalParent host path (openAbsoluteDirectory host) fun parent => do
    let (value, _) ← loadJournalAt host parent path.name
    pure value

/-- `recovery_plan`. -/
def recoveryPlan (host : Host) (path : Path) : JournalProg Dict := do
  let value ← loadJournal host path
  let mode ← .ofExcept (recoveryMode value)
  pure (Dict.set value "recovery_mode" (.str mode))

/-- A dictionary argument: no key twice. -/
structure Arguments where
  entries : Dict
  nodup : (entries.map Prod.fst).Nodup

/-- The arguments of `create_journal`. -/
structure JournalRequest where
  invocationId : String
  desiredFingerprint : String
  mode : String
  ownedPaths : Arguments
  serviceName : Option String
  serviceWasActive : Option Bool
  serviceWasEnabled : Option Bool

/-- A boolean, or `null`. -/
def optionalBool : Option Bool → Json
  | none => .null
  | some b => .bool b

/-- The dictionary of owned paths. -/
def ownedPathsJson (owned : List (String × OwnedPath)) : Json :=
  .obj (owned.map fun entry => (entry.1, .obj entry.2.toDict))

/-- The document of a new journal. -/
def newJournal (request : JournalRequest) (owned : List (String × OwnedPath)) (now : String) :
    Dict :=
  [("schema_version", .str bootstrapTransactionSchema),
    ("invocation_id", .str request.invocationId),
    ("desired_fingerprint", .str request.desiredFingerprint),
    ("mode", .str request.mode),
    ("state", .str "locked"),
    ("started_at", .str now),
    ("updated_at", .str now),
    ("previous_generation", .null),
    ("prepared_generation", .null),
    ("service_name", optionalText request.serviceName),
    ("service_was_active", optionalBool request.serviceWasActive),
    ("service_was_enabled", optionalBool request.serviceWasEnabled),
    ("recovered_from", .null),
    ("irreversible_boundary", .bool false),
    ("owned_paths", ownedPathsJson owned),
    ("phase_identities", .obj [("locked", .str request.desiredFingerprint)])]

/-- `_entry_exists_without_following`: a missing directory on the way is no error. -/
def entryExists (host : Host) (path : Path) : JournalProg Bool := do
  let normalized ← .ofExcept (normalizedAbsolute path "bootstrap owned path")
  let resolved := resolveSitePrefix host normalized.parent
  match ← .look fun disk => disk.walk [] resolved.names with
  | .error .missing => pure false
  | .error .notDirectory => .raise (topologyError resolved .notDirectory)
  | .ok parent => .look fun disk =>
    normalized.name ≠ "" && (disk.find (parent ++ [normalized.name])).isSome

/-- Prove one owned path absent. -/
def proveAbsent (host : Host) (item : String × OwnedPath) : JournalProg Unit := do
  let target := Path.ofString item.2.path
  let found ← entryExists host target
  demand (!found) s!"bootstrap-owned path already exists: {target.toString}"

/-- `create_journal`. -/
def createJournal (host : Host) (path : Path) (request : JournalRequest) : JournalProg Dict := do
  demand (isIdentifier request.invocationId) "bootstrap invocation identity is invalid"
  demand (isSha256 request.desiredFingerprint) "bootstrap desired fingerprint is invalid"
  demand (transactionModes.contains request.mode) "bootstrap transaction mode is invalid"
  let owned ← .ofExcept (coerceOwnedPaths (.obj request.ownedPaths.entries))
  .each (proveAbsent host) owned
  let c ← chance
  let value := newJournal request owned c.text
  .ofExcept (validateJournal value)
  withJournalParent host path (createAbsoluteDirectory host) fun parent => do
    let entry ← .look fun disk => disk.find (parent.place ++ [path.name])
    let previous ← .ofExcept (journalIdentityIfPresent host entry)
    atomicJsonAt host parent path.name value previous
    pure value

/-- `advance_journal`. -/
def advanceJournal (host : Host) (path : Path) (state : String)
    (preparedGeneration : Option String) : JournalProg Dict :=
  editJournal host path fun _ value => do
    let c ← chance
    .ofExcept (advanceValue value state preparedGeneration c.text)

/-- The edit of `record_phase`. -/
def recordPhaseValue (value : Dict) (phase identity now : String) : Except JournalError Dict := do
  let state ← string value "state"
  ensure (!terminalStates.contains state) "terminal bootstrap transaction cannot record a phase"
  let phases ← coercePhaseIdentities (value.get "phase_identities")
  ensure ((phases.lookup phase).all fun previous => previous == identity)
    s!"bootstrap phase identity changed: {phase}"
  let entries : Dict := phases.map fun entry => (entry.1, .str entry.2)
  let value := value.set "phase_identities" (.obj (entries.set phase (.str identity)))
  let value := value.set "updated_at" (.str now)
  validateJournal value
  pure value

/-- `record_phase`. -/
def recordPhase (host : Host) (path : Path) (phase identity : String) : JournalProg Dict := do
  demand (isIdentifier phase) "bootstrap phase name is invalid"
  demand (isSha256 identity) "bootstrap phase identity is invalid"
  editJournal host path fun _ value => do
    let c ← chance
    .ofExcept (recordPhaseValue value phase identity c.text)

end ClioQueue.Bootstrap
