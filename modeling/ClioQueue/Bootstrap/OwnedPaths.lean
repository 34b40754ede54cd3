/-
# Owned paths

`clio_relay/bootstrap_journal.py`, on POSIX: the operations that create, record and discard the
paths of a first install.  `record_owned_path`, `create_owned_directory`, `create_owned_symlink`
and `copy_owned_file` bind a path to the identity of what stands there;
`discard_full_transaction` removes what still has its recorded identity, the deepest paths first.

The home of the first four is the directory three levels above the journal's one; the home of
the discard is an argument, of which only the way down to the journal is checked.
-/

import ClioQueue.Bootstrap.JournalFiles

namespace ClioQueue.Bootstrap

open Durable

/-! ### Identities -/

/-- `_identity_record`. -/
def identityRecord (stat : Stat) (size : Nat) (fileType : OwnedFileType)
    (digest linkTarget : Option String) : Dict :=
  [("device", .num stat.device ""), ("inode", .num stat.inode ""),
    ("file_type", .str fileType.value), ("changed_ns", .num stat.changedNs ""),
    ("size", .num size ""), ("sha256", optionalText digest),
    ("symlink_target", optionalText linkTarget)]

/-- `_owned_identity_at`, with the type it has found. -/
def ownedIdentityAt (host : Host) (entry : Entry FileContent) (display : Path) :
    Except JournalError (OwnedFileType × Dict) :=
  match entry.body with
  | .file content =>
    .ok (.file, identityRecord entry.stat content.size .file (some (host.sha256 content.raw)) none)
  | .symlink target =>
    .ok (.symlink, identityRecord entry.stat entry.stat.size .symlink none (some target))
  | .directory => .ok (.directory, identityRecord entry.stat entry.stat.size .directory none none)
  | .other => .error (.journal s!"bootstrap owned path type is unsafe: {display.toString}")

/-- `_owned_identity_matches`: of a directory only the stable fields count. -/
def ownedIdentityMatches (expected observed : Dict) : Bool :=
  ["device", "inode", "file_type"].all (fun field => expected.get field == observed.get field) &&
    (expected.get "file_type" == .str "directory" || expected == observed)

/-! ### Places below the home -/

/-- `_home_for_journal_parent`. -/
def homeForJournalParent (parent : Path) : Except JournalError Path := do
  ensure (3 ≤ parent.names.length) "bootstrap journal parent is outside the user home"
  let home := parent.parent.parent.parent
  ensure (parent = home.join [".local", "share", "clio-relay"])
    "bootstrap journal parent is outside the relay namespace"
  pure home

/-- `_open_target_parent_at`: `none` for a missing directory. -/
def openTargetParentAt (home : Descriptor) (relative : List String) :
    JournalProg (Option Descriptor) := do
  match ← .look fun disk => disk.walk home.place relative with
  | .error .missing => pure none
  | .error .notDirectory => .raise (.journal "bootstrap owned path parent topology changed")
  | .ok place => some <$> openAt place

/-- `_verify_journal_parent_from_home`. -/
def verifyJournalParentFromHome (home : Descriptor) (homePath : Path) (journal : Descriptor)
    (journalParent : Path) : JournalProg Unit := do
  match journalParent.relativeTo homePath with
  | none => .raise (.journal "bootstrap journal is outside the recovery home")
  | some relative =>
    match ← openTargetParentAt home relative with
    | none => .raise (.journal "bootstrap journal parent is no longer reachable")
    | some observed =>
      demand (observed.device == journal.device && observed.inode == journal.inode)
        "bootstrap journal parent identity changed"

/-- `_require_current_owner`. -/
def requireCurrentOwner (host : Host) (home : Descriptor) (description : String) :
    JournalProg Unit := do
  let entry ← .look fun disk => disk.find home.place
  demand (entry.any fun e => e.isDirectory && e.stat.uid == host.uid)
    s!"{description} is not owned by the current user"

/-- Open a home and check that the journal's directory is reached from it. -/
def openHome (host : Host) (homePath : Path) (description : String) (journal : Descriptor)
    (journalParent : Path) : JournalProg Descriptor := do
  let home ← openAbsoluteDirectory host homePath
  requireCurrentOwner host home description
  verifyJournalParentFromHome home homePath journal journalParent
  pure home

/-- `target.relative_to(home)`. -/
def relativeToHome (target home : Path) : Except JournalError (List String) :=
  match target.relativeTo home with
  | none => .error (.journal "bootstrap owned path escaped its home")
  | some relative => .ok relative

/-! ### Recording -/

/-- The owned path of a name. -/
def ownedItem (owned : List (String × OwnedPath)) (name : String) : Except JournalError OwnedPath :=
  match owned.lookup name with
  | none => .error (.journal s!"bootstrap owned path is unknown: {name}")
  | some item => .ok item

/-- The edit of a document that binds an owned path to an identity. -/
def bindOwnedPath (value : Dict) (owned : List (String × OwnedPath)) (name : String)
    (item : OwnedPath) (observed : Dict) (now : String) : Except JournalError Dict := do
  let entries : Dict := owned.map fun entry => (entry.1, .obj entry.2.toDict)
  let bound : Json := .obj (Dict.set item.toDict "identity" (.obj observed))
  let value := value.set "owned_paths" (.obj (entries.set name bound))
  let value := value.set "updated_at" (.str now)
  validateJournal value
  pure value

/-- The owned paths of a journal that is not terminal. -/
def claimableOwnedPaths (value : Dict) (refusal : String) :
    Except JournalError (List (String × OwnedPath)) := do
  let state ← string value "state"
  ensure (!terminalStates.contains state) refusal
  coerceOwnedPaths (value.get "owned_paths")

/-- The entry of a name below an opened directory; an empty name is never found. -/
def entryBelow (parent : Descriptor) (relative : List String) :
    JournalProg (Option (Entry FileContent)) :=
  .look fun disk => relative.getLast?.bind fun name => disk.find (parent.place ++ [name])

/-- `_owned_identity_from_home`. -/
def ownedIdentityFromHome (host : Host) (home : Descriptor) (homePath target : Path)
    (kind : OwnedKind) : JournalProg Dict := do
  let unavailable := s!"bootstrap owned path is unavailable: {target.toString}"
  let normalized ← .ofExcept (normalizedAbsolute target "bootstrap owned path")
  let relative ← .ofExcept (relativeToHome normalized homePath)
  match ← openTargetParentAt home relative.dropLast with
  | none => .raise (.journal unavailable)
  | some parent =>
    match ← entryBelow parent relative with
    | none => .raise (.journal unavailable)
    | some entry =>
      let (fileType, identity) ← .ofExcept (ownedIdentityAt host entry normalized)
      demand (kindAccepts kind fileType) s!"bootstrap owned path kind changed: {target.toString}"
      pure identity

/-- `record_owned_path`. -/
def recordOwnedPath (host : Host) (path : Path) (name : String) : JournalProg Dict := do
  demand (isIdentifier name) "bootstrap owned path name is invalid"
  editJournal host path fun parent value => do
    let owned ← .ofExcept
      (claimableOwnedPaths value "terminal bootstrap transaction cannot claim a path")
    let item ← .ofExcept (ownedItem owned name)
    let homePath ← .ofExcept (homeForJournalParent path.parent)
    let home ← openHome host homePath "bootstrap ownership home" parent path.parent
    let observed ← ownedIdentityFromHome host home homePath (Path.ofString item.path) item.kind
    demand (item.identity.all fun previous => previous.toDict == observed)
      s!"bootstrap owned path identity changed: {name}"
    let c ← chance
    .ofExcept (bindOwnedPath value owned name item observed c.text)

/-! ### Creating -/

/-- The owned places outside the private root. -/
def exactRoots (home : Path) : List Path :=
  [home.join [".local", "src", "clio-relay"], home.join [".local", "src", "jarvis-util"],
    home.join [".ppi-jarvis"]]

/-- The owned binaries. -/
def exactBin (home : Path) : List Path :=
  ["frpc", "frps", "uv", "uvx", "clio-relay", "jarvis"].map fun name =>
    home.join [".local", "bin", name]

/-- `_validate_recovery_target`. -/
def validateRecoveryTarget (target : Path) (kind : OwnedKind) (home : Path) (name : String) :
    Except JournalError Unit := do
  let resolvedHome ← normalizedAbsolute home "bootstrap recovery home"
  let lexical ← normalizedAbsolute target s!"bootstrap owned path {name}"
  let below := lexical.relativeTo (resolvedHome.join [".local", "share", "clio-relay"])
  ensure ((exactRoots resolvedHome).contains lexical || (exactBin resolvedHome).contains lexical ||
      below.any fun relative => !relative.isEmpty)
    s!"owned recovery path is outside relay boundaries: {name}"
  ensure (!((exactBin resolvedHome).contains lexical) || kind = .file || kind = .symlink)
    s!"owned binary path has an invalid kind: {name}"

/-- The write and the checks of `_create_and_record_owned_path`, once the entry is created. -/
def publishOwned (host : Host) (path : Path) (parent : Descriptor) (identity : FileIdentity)
    (value : Dict) (owned : List (String × OwnedPath)) (name : String) (item : OwnedPath)
    (place : Place) : JournalProg Dict := do
  let display := Path.ofString item.path
  match ← .look fun disk => disk.find place with
  | none => .raise fileNotFound
  | some entry =>
    let (fileType, observed) ← .ofExcept (ownedIdentityAt host entry display)
    demand (kindAccepts item.kind fileType)
      s!"bootstrap owned path kind changed: {display.toString}"
    let c ← chance
    let edited ← .ofExcept (bindOwnedPath value owned name item observed c.text)
    atomicJsonAt host parent path.name edited (some identity)
    match ← .look fun disk => disk.find place with
    | none => .raise fileNotFound
    | some entry =>
      let (_, current) ← .ofExcept (ownedIdentityAt host entry display)
      demand (ownedIdentityMatches observed current)
        s!"bootstrap owned path changed during publication: {display.toString}"
      pure edited

/-- `_create_and_record_owned_path`. -/
def createAndRecordOwnedPath (host : Host) (path : Path) (name : String)
    (create : Place → JournalProg Unit) : JournalProg Dict := do
  demand (isIdentifier name) "bootstrap owned path name is invalid"
  withJournalParent host path (openAbsoluteDirectory host) fun parent => do
    let (value, identity) ← loadJournalAt host parent path.name
    let owned ← .ofExcept
      (claimableOwnedPaths value "terminal bootstrap transaction cannot create a path")
    let item ← .ofExcept (ownedItem owned name)
    demand item.identity.isNone s!"bootstrap owned path was already created: {name}"
    let target := Path.ofString item.path
    let homePath ← .ofExcept (homeForJournalParent path.parent)
    .ofExcept (validateRecoveryTarget target item.kind homePath name)
    let relative ← .ofExcept (relativeToHome target homePath)
    let home ← openHome host homePath "bootstrap ownership home" parent path.parent
    match ← openTargetParentAt home relative.dropLast, relative.getLast? with
    | none, _ =>
      .raise (.journal s!"bootstrap owned path parent is unavailable: {target.toString}")
    | some _, none => .raise fileNotFound
    | some targetParent, some last =>
      let place := targetParent.place ++ [last]
      let existing ← .look fun disk => disk.find place
      demand existing.isNone s!"bootstrap-owned path already exists: {target.toString}"
      create place
      let edited ← publishOwned host path parent identity value owned name item place
      verifyJournalParentFromHome home homePath parent path.parent
      pure edited

/-- A new entry of the user. -/
def makeEntry (host : Host) (place : Place) (mode : Nat) (size : Chance → Nat)
    (body : Body FileContent) : JournalProg Unit := do
  let c ← chance
  .durably fun disk => disk.create place
    ⟨⟨c.device, c.inode, c.changedNs, size c, host.uid, mode, 1⟩, body⟩ c.directory

/-- `create_owned_directory`. -/
def createOwnedDirectory (host : Host) (path : Path) (name : String) : JournalProg Dict :=
  createAndRecordOwnedPath host path name fun place =>
    makeEntry host place 0o700 Chance.size .directory

/-- `create_owned_symlink`. -/
def createOwnedSymlink (host : Host) (path : Path) (name target : String) : JournalProg Dict := do
  demand (target ≠ "" && !hasControl target) "bootstrap owned symlink target is invalid"
  createAndRecordOwnedPath host path name fun place =>
    makeEntry host place 0o777 (fun _ => target.utf8ByteSize) (.symlink target)

/-- The contents a target goes through while a source is copied in pieces of 1 MiB. -/
def copyPieces (content : FileContent) : List FileContent :=
  let raw := content.raw
  let pieces := (List.range ((raw.length - 1) / 1048576)).map fun i =>
    FileContent.bytes (raw.take ((i + 1) * 1048576))
  if raw.isEmpty then [] else pieces ++ [content]

/-- The copy of `copy_owned_file`. -/
def copyFile (host : Host) (source : Path) (mode : Nat) (place : Place) : JournalProg Unit := do
  let parent ← openAbsoluteDirectory host source.parent
  match ← entryBelow parent source.names with
  | none => .raise fileNotFound
  | some ⟨_, .symlink _⟩ => .raise (.os "Too many levels of symbolic links")
  | some ⟨_, .file content⟩ => do
    makeEntry host place mode (fun _ => 0) (.file (.bytes []))
    .each (fun piece => do
      let c ← chance
      .durably fun disk => disk.write place piece c.changedNs) (copyPieces content)
  | some _ => .raise (.journal "bootstrap owned file source is not regular")

/-- `copy_owned_file`. -/
def copyOwnedFile (host : Host) (path : Path) (name : String) (source : Path) (mode : Nat) :
    JournalProg Dict := do
  demand ([0o600, 0o700, 0o755].contains mode) "bootstrap owned file mode is invalid"
  let normalizedSource ← .ofExcept (normalizedAbsolute source "bootstrap owned file source")
  createAndRecordOwnedPath host path name fun place => copyFile host normalizedSource mode place

/-! ### Discarding -/

/-- `_unlink_entry_at`. -/
def unlinkEntry (place : Place) : JournalProg Unit := do
  let c ← chance
  .durably fun disk => disk.unlink place c.directory

/-- `os.rmdir`. -/
def removeEmptyDirectory (place : Place) : JournalProg Unit := do
  let names ← .look fun disk => disk.names place
  .require names.isEmpty (.os "Directory not empty")
  unlinkEntry place

/-- One entry of `_remove_directory_contents`. -/
def removeContent (removeDirectory : Place → Path → JournalProg Unit) (place : Place)
    (display : Path) : JournalProg Unit := do
  match ← .look fun disk => disk.find place with
  | none => pure ()
  | some ⟨_, .directory⟩ => removeDirectory place display
  | some ⟨_, .other⟩ =>
    .raise (.journal s!"owned directory contains an unsupported entry: {display.toString}")
  | some _ => unlinkEntry place

/-- `_remove_directory_at`, down to a depth. -/
def removeDirectory : (depth : Nat) → Place → Path → JournalProg Unit
  | 0, _, _ => .raise (.os "maximum recursion depth exceeded")
  | depth + 1, place, display => do
    let names ← .look fun disk => disk.names place
    .each (fun name =>
      removeContent (removeDirectory depth) (place ++ [name]) (display.join [name])) names
    removeEmptyDirectory place

/-- More names than any place of the disk has. -/
def depthBound (disk : Disk) : Nat := (disk.map fun e => e.1.length).foldr max 0 + 1

/-- The types a kind is removed as, and the refusal of any other. -/
def removedAs (kind : OwnedKind) (fileType : OwnedFileType) (display : Path) :
    Except JournalError Unit :=
  ensure (kindAccepts kind fileType) <| match kind with
    | .directory => s!"owned directory identity changed: {display.toString}"
    | .file => s!"owned file identity changed: {display.toString}"
    | .fileOrSymlink => s!"owned path identity changed: {display.toString}"
    | .symlink => s!"owned symlink identity changed: {display.toString}"

/-- `_discard_owned_entry_at`, the checks before the removal. -/
def proveOwned (host : Host) (item : OwnedPath) (entry : Entry FileContent) (display : Path) :
    Except JournalError Unit :=
  match item.identity with
  | none => .error (.journal
      s!"bootstrap owned path identity was not durably recorded: {display.toString}")
  | some expected => do
    let (fileType, observed) ← ownedIdentityAt host entry display
    ensure (ownedIdentityMatches expected.toDict observed)
      s!"bootstrap owned path identity changed: {display.toString}"
    removedAs item.kind fileType display

/-- `_discard_owned_entry_at`. -/
def discardOwnedEntry (host : Host) (item : OwnedPath) (place : Place) (display : Path) :
    JournalProg Unit := do
  match ← .look fun disk => disk.find place with
  | none => pure ()
  | some entry =>
    .ofExcept (proveOwned host item entry display)
    if item.kind = .directory then
      let depth ← .look depthBound
      removeDirectory depth place display
    else unlinkEntry place

/-- One owned path of `discard_full_transaction`. -/
def discardOwnedPath (host : Host) (home : Descriptor) (homePath : Path)
    (named : String × OwnedPath) : JournalProg Unit := do
  let target := Path.ofString named.2.path
  .ofExcept (validateRecoveryTarget target named.2.kind homePath named.1)
  let relative ← .ofExcept (relativeToHome target homePath)
  match ← openTargetParentAt home relative.dropLast, relative.getLast? with
  | some parent, some last => discardOwnedEntry host named.2 (parent.place ++ [last]) target
  | _, _ => pure ()

/-- The owned paths with the most parts first. -/
def discardOrder (owned : List (String × OwnedPath)) : List (String × OwnedPath) :=
  owned.insertionSort fun a b =>
    (Path.ofString b.2.path).names.length ≤ (Path.ofString a.2.path).names.length

/-- The edit of `discard_full_transaction`. -/
def recoveredValue (value : Dict) (now : String) : Except JournalError Dict := do
  let value := value.set "recovered_from" (value.get "state")
  let value := value.set "state" (.str "recovered")
  let value := value.set "updated_at" (.str now)
  validateJournal value
  pure value

/-- The owned paths of a journal that may be discarded. -/
def discardableOwnedPaths (value : Dict) : Except JournalError (List (String × OwnedPath)) := do
  let mode ← recoveryMode value
  ensure (value.get "mode" = .str "full" && mode = "discard")
    "bootstrap transaction is not safely discardable"
  coerceOwnedPaths (value.get "owned_paths")

/-- `discard_full_transaction`. -/
def discardFullTransaction (host : Host) (path home : Path) : JournalProg Dict := do
  let homePath ← .ofExcept (normalizedAbsolute home "bootstrap recovery home")
  editJournal host path fun parent value => do
    let owned ← .ofExcept (discardableOwnedPaths value)
    let home ← openHome host homePath "bootstrap recovery home" parent path.parent
    .each (discardOwnedPath host home homePath) (discardOrder owned)
    verifyJournalParentFromHome home homePath parent path.parent
    let c ← chance
    .ofExcept (recoveredValue value c.text)

end ClioQueue.Bootstrap
