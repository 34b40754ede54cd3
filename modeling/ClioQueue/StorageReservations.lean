/-
# The storage reservation ledger: operations

`clio_relay/storage_reservation_ledger.py`, `_snapshot` and `_volume_status` of
`clio_relay/storage_snapshot.py` and `_write_ledger` of `clio_relay/storage_policy.py`.

Each operation runs under the lock of the ledger: it reads the ledger file, proposes a
ledger, checks it against the limits and replaces the file.  What the file system and the
clock answer during one call is its `StorageHost`.  A write can fail before the file is
replaced or after it, when the read-back or the directory sync fails.  An operation returns a
decision; a `StoragePolicyError` becomes one.
-/

import ClioQueue.Durable.Program
import ClioQueue.StorageLedger

namespace ClioQueue

open Durable Durable.Prog

/-! ### Usage and decisions -/

/-- `TreeUsage`. -/
structure TreeUsage where
  root : String
  bytes : Nat
  files : Nat
  links : Nat
  directories : Nat
  entries : Nat
  deriving DecidableEq, Inhabited

/-- `StorageTreeSnapshot`. -/
structure StorageTreeSnapshot where
  core : TreeUsage
  spool : TreeUsage
  deriving DecidableEq

/-- `VolumeStatus`. -/
structure VolumeStatus where
  volumeId : String
  storageFamilies : List String
  freeBytes : Int
  reservedBytes : Nat
  availableAfterReservationsBytes : Int
  minimumFreeBytes : Nat
  deriving DecidableEq

/-- `VolumeStatus.healthy`. -/
def VolumeStatus.healthy (volume : VolumeStatus) : Bool :=
  decide (volume.availableAfterReservationsBytes ≥ volume.minimumFreeBytes)

/-- `StorageStatus`. -/
structure StorageStatus where
  healthy : Bool
  reason : StorageReason
  core : TreeUsage
  spool : TreeUsage
  reservedCoreBytes : Nat
  reservedSpoolBytes : Nat
  reservationCount : Nat
  ledgerGeneration : Nat
  volumes : List VolumeStatus
  deriving DecidableEq

/-- `StorageDecision`. -/
structure StorageDecision where
  allowed : Bool
  reason : StorageReason
  message : String
  status : Option StorageStatus
  details : Dict
  deriving DecidableEq

/-- `_error_decision`; other exceptions are not caught. -/
def errorDecision : StorageError → Except StorageError StorageDecision
  | .policy reason message details =>
    .ok { allowed := false, reason, message, status := none, details }
  | .typeError message => .error (.typeError message)

/-! ### The file and its host -/

/-- The ledger file: the length of its text, and the document if the text is UTF-8 JSON. -/
inductive LedgerFile where
  | absent
  | text (bytes : Nat) (document : Option Json)
  deriving DecidableEq

/-- How a replacement of the ledger file ends. -/
inductive Persistence where
  | committed
  | refused (error : StorageError)
  | unconfirmed (error : StorageError)

/-- What the file system and the clock answer during one call. -/
structure StorageHost where
  lock : Except StorageError Unit
  inspected : Except StorageError Unit
  scan : Except StorageError StorageTreeSnapshot
  coreVolume : Except StorageError String
  spoolVolume : Except StorageError String
  freeBytes : String → Except StorageError Int
  clock : ClockReading
  persistence : Persistence

/-- Where `state_root`, and with it the ledger file, lies: `core_root / ".storage"` by default. -/
inductive StateRoot where
  | inCore
  | inSpool
  | elsewhere
  deriving DecidableEq

/-- `StoragePolicy`. -/
structure StoragePolicy where
  coreRoot : String
  spoolRoot : String
  stateRoot : StateRoot
  limits : StorageLimits

/-- A program over the ledger file. -/
abbrev LedgerOp (α : Type) : Type := Prog LedgerFile Unit StorageError α

section

variable [StoragePlatform]

/-- The document of a ledger file that was read. -/
def LedgerFile.ledger (limits : StorageLimits) : LedgerFile → Except StorageError LedgerState
  | .absent => .ok { generation := 0, reservations := [] }
  | .text bytes document =>
    if bytes = 0 then .error (malformed "storage reservation ledger is empty")
    else if bytes > limits.maxLedgerBytes then
      .error (.policy .ledgerOversized
        "storage reservation ledger exceeds its configured byte limit"
        [("max_ledger_bytes", .num limits.maxLedgerBytes "")])
    else
      match document with
      | none => .error (malformed "storage reservation ledger is not valid UTF-8 JSON")
      | some value => decodeLedger limits value

/-- `_read_ledger`. -/
def readLedger (limits : StorageLimits) (host : StorageHost) : LedgerOp LedgerState :=
  ofExcept host.inspected >>= fun _ =>
    look (LedgerFile.ledger limits) >>= ofExcept

/-- The file that is written for a ledger. -/
def writtenFile (ledger : LedgerState) : LedgerFile :=
  .text (StoragePlatform.documentBytes (encodeLedger ledger)) (some (encodeLedger ledger))

/-- `_write_ledger`. -/
def writeLedger (limits : StorageLimits) (host : StorageHost) (ledger : LedgerState) :
    LedgerOp Unit :=
  if StoragePlatform.documentBytes (encodeLedger ledger) > limits.maxLedgerBytes then
    raise (.policy .ledgerOversized
      "encoded storage reservation ledger exceeds its configured byte limit"
      [("max_ledger_bytes", .num limits.maxLedgerBytes "")])
  else
    match host.persistence with
    | .refused error => raise error
    | .committed => Prog.durably fun _ => writtenFile ledger
    | .unconfirmed error =>
      (Prog.durably fun _ => writtenFile ledger) >>= fun _ => raise error

end

/-! ### The check against the limits -/

/-- `_volume_status`: one entry for each volume, in the order of their ids. -/
def volumeStatus (policy : StoragePolicy) (host : StorageHost) (reservedCore reservedSpool : Nat) :
    Except StorageError (List VolumeStatus) := do
  let core ← host.coreVolume
  let spool ← host.spoolVolume
  let entry (volumeId : String) (storageFamilies : List String) (reserved : Nat) :
      Except StorageError VolumeStatus := do
    let free ← host.freeBytes volumeId
    pure { volumeId, storageFamilies, freeBytes := free, reservedBytes := reserved,
           availableAfterReservationsBytes := free - reserved,
           minimumFreeBytes := policy.limits.minimumFreeBytes }
  if core = spool then
    let shared ← entry core ["core", "spool"] (reservedCore + reservedSpool)
    pure [shared]
  else if core < spool then
    let first ← entry core ["core"] reservedCore
    let second ← entry spool ["spool"] reservedSpool
    pure [first, second]
  else
    let first ← entry spool ["spool"] reservedSpool
    let second ← entry core ["core"] reservedCore
    pure [first, second]

/-- `sum(record.core_bytes for record in reservations)`. -/
def reservedCoreBytes (reservations : List ReservationRecord) : Nat :=
  (reservations.map ReservationRecord.coreBytes).sum

/-- `sum(record.spool_bytes for record in reservations)`. -/
def reservedSpoolBytes (reservations : List ReservationRecord) : Nat :=
  (reservations.map ReservationRecord.spoolBytes).sum

/-- The reason of `_snapshot`. -/
def snapshotReason (limits : StorageLimits) (tree : StorageTreeSnapshot)
    (reservations : List ReservationRecord) (volumes : List VolumeStatus) : StorageReason :=
  let reservedCore := reservedCoreBytes reservations
  let reservedSpool := reservedSpoolBytes reservations
  if tree.core.bytes + reservedCore > limits.coreHighWaterBytes then .coreHighWater
  else if tree.spool.bytes + reservedSpool > limits.spoolHighWaterBytes then .spoolHighWater
  else if tree.core.bytes + tree.spool.bytes + reservedCore + reservedSpool >
      limits.totalHighWaterBytes then .totalHighWater
  else if volumes.any fun volume => !volume.healthy then .filesystemFreeReserve
  else .healthy

/-- `_snapshot`: without a tree snapshot the trees are scanned. -/
def takeSnapshot (policy : StoragePolicy) (host : StorageHost)
    (reservations : List ReservationRecord) (ledgerGeneration : Nat)
    (treeSnapshot : Option StorageTreeSnapshot) : Except StorageError StorageStatus := do
  let tree ← match treeSnapshot with
    | none => host.scan
    | some tree =>
      if tree.core.root ≠ policy.coreRoot ∨ tree.spool.root ≠ policy.spoolRoot then
        .error (.policy .invalidRequest
          "storage tree snapshot belongs to different configured roots" [])
      else .ok tree
  let volumes ← volumeStatus policy host (reservedCoreBytes reservations)
    (reservedSpoolBytes reservations)
  let reason := snapshotReason policy.limits tree reservations volumes
  pure
    { healthy := decide (reason = .healthy), reason, core := tree.core, spool := tree.spool,
      reservedCoreBytes := reservedCoreBytes reservations,
      reservedSpoolBytes := reservedSpoolBytes reservations,
      reservationCount := reservations.length, ledgerGeneration, volumes }

/-! ### Reserve and release -/

section

variable [StoragePlatform]

/-- The record of a job. -/
def LedgerState.find (ledger : LedgerState) (jobId : DurableRecordId) : Option ReservationRecord :=
  ledger.reservations.find? fun record => record.jobId = jobId

/-- The details of a decision about one record. -/
def reservationDetails (record : ReservationRecord) : Dict :=
  [("reservation", .obj record.toDict)]

/-- `reserve`, for a job with a record. -/
def reserveExisting (policy : StoragePolicy) (host : StorageHost) (ledger : LedgerState)
    (existing : ReservationRecord) (amounts : Nat × Nat) (tree : StorageTreeSnapshot) :
    LedgerOp StorageDecision :=
  if existing.coreBytes ≠ amounts.1 ∨ existing.spoolBytes ≠ amounts.2 then
    pure
      { allowed := false, reason := .reservationConflict,
        message := "job already has a different durable storage reservation",
        status := none, details := reservationDetails existing }
  else
    ofExcept (takeSnapshot policy host ledger.reservations ledger.generation (some tree)) >>=
      fun snapshot =>
        if snapshot.healthy = false then
          pure
            { allowed := false, reason := snapshot.reason,
              message := "existing reservation is idempotent, but current storage " ++
                "pressure denies admission",
              status := some snapshot,
              details := reservationDetails existing ++ [("idempotent", .bool true)] }
        else
          pure
            { allowed := true, reason := .reservationIdempotent,
              message := "the requested storage reservation already exists",
              status := some snapshot, details := reservationDetails existing }

/-- The ledger that `reserve` proposes. -/
def LedgerState.adding (ledger : LedgerState) (record : ReservationRecord) : LedgerState where
  generation := ledger.generation + 1
  reservations := sortByKey ReservationRecord.order (ledger.reservations ++ [record])

/-- `reserve`, for a job without a record. -/
def reserveNew (policy : StoragePolicy) (host : StorageHost) (ledger : LedgerState)
    (jobId : DurableRecordId) (amounts : Nat × Nat) (tree : StorageTreeSnapshot) :
    LedgerOp StorageDecision :=
  if ledger.reservations.length ≥ policy.limits.maxReservations then
    pure
      { allowed := false, reason := .ledgerCapacity,
        message := "reservation ledger reached its configured record limit", status := none,
        details := [("max_reservations", .num policy.limits.maxReservations "")] }
  else
    ofExcept (formatTimestamp host.clock) >>= fun createdAt =>
      let record : ReservationRecord :=
        { jobId, coreBytes := amounts.1, spoolBytes := amounts.2, createdAt }
      let proposed := ledger.adding record
      ofExcept
          (takeSnapshot policy host proposed.reservations proposed.generation (some tree)) >>=
        fun snapshot =>
          if snapshot.healthy = false then
            pure
              { allowed := false, reason := snapshot.reason,
                message := "storage reservation would violate a configured safety threshold",
                status := some snapshot, details := reservationDetails record }
          else
            writeLedger policy.limits host proposed >>= fun _ =>
              pure
                { allowed := true, reason := .reserved,
                  message := "storage was reserved for the job",
                  status := some snapshot, details := reservationDetails record }

/-- `reserve`: without a tree snapshot the trees are scanned before the lock is taken. -/
def reserve (policy : StoragePolicy) (host : StorageHost) (jobId : String)
    (coreBytes spoolBytes : Int) (treeSnapshot : Option StorageTreeSnapshot) :
    LedgerOp StorageDecision :=
  Prog.handle errorDecision (ofExcept (validateJobId jobId) >>= fun jobId =>
      ofExcept (validateReservationBytes policy.limits coreBytes spoolBytes) >>= fun amounts =>
        ofExcept (match treeSnapshot with
          | some tree => .ok tree
          | none => host.scan) >>= fun tree =>
          ofExcept host.lock >>= fun _ =>
            readLedger policy.limits host >>= fun ledger =>
              match ledger.find jobId with
              | some existing => reserveExisting policy host ledger existing amounts tree
              | none => reserveNew policy host ledger jobId amounts tree)

/-- The ledger without the records that `keep` does not hold of. -/
def LedgerState.keeping (ledger : LedgerState) (keep : ReservationRecord → Bool) :
    LedgerState where
  generation := ledger.generation + 1
  reservations := ledger.reservations.filter keep

/-- `release`. -/
def release (policy : StoragePolicy) (host : StorageHost) (jobId : String) :
    LedgerOp StorageDecision :=
  Prog.handle errorDecision (ofExcept (validateJobId jobId) >>= fun jobId =>
      ofExcept host.lock >>= fun _ =>
        readLedger policy.limits host >>= fun ledger =>
          match ledger.find jobId with
          | none =>
            pure
              { allowed := true, reason := .reservationAbsent,
                message := "job has no storage reservation", status := none,
                details := [("job_id", .str jobId.value),
                  ("ledger_generation", .num ledger.generation "")] }
          | some existing =>
            let retained := ledger.keeping fun record => record.jobId ≠ jobId
            writeLedger policy.limits host retained >>= fun _ =>
              pure
                { allowed := true, reason := .reservationReleased,
                  message := "job storage reservation was released", status := none,
                  details := reservationDetails existing ++
                    [("ledger_generation", .num retained.generation "")] })

/-- `verify_reservation`. -/
def verifyReservation (policy : StoragePolicy) (host : StorageHost) (jobId : String)
    (coreBytes spoolBytes : Int) : LedgerOp StorageDecision :=
  Prog.handle errorDecision (ofExcept (validateJobId jobId) >>= fun jobId =>
      ofExcept (validateReservationBytes policy.limits coreBytes spoolBytes) >>= fun amounts =>
        ofExcept host.lock >>= fun _ =>
          readLedger policy.limits host >>= fun ledger =>
            match ledger.find jobId with
            | none =>
              pure
                { allowed := false, reason := .reservationAbsent,
                  message := "active job has no durable storage reservation", status := none,
                  details := [("job_id", .str jobId.value)] }
            | some existing =>
              if existing.coreBytes ≠ amounts.1 ∨ existing.spoolBytes ≠ amounts.2 then
                pure
                  { allowed := false, reason := .reservationConflict,
                    message := "active job disagrees with its durable storage reservation",
                    status := none,
                    details := reservationDetails existing ++
                      [("requested", .obj [("core_bytes", .num coreBytes ""),
                        ("spool_bytes", .num spoolBytes "")])] }
              else
                pure
                  { allowed := true, reason := .reservationIdempotent,
                    message := "active job storage reservation is present", status := none,
                    details := reservationDetails existing ++
                      [("ledger_generation", .num ledger.generation "")] })

/-! ### Reconciliation -/

/-- `_validate_job_id` of each id of an active set. -/
def validateJobIds : List String → Except StorageError (List DurableRecordId)
  | [] => .ok []
  | jobId :: rest => do
    let id ← validateJobId jobId
    let ids ← validateJobIds rest
    pure (id :: ids)

/-- Job ids as a JSON list. -/
def jobIdList (jobIds : List DurableRecordId) : Json :=
  .arr (jobIds.map fun jobId => .str jobId.value)

/-- `reconcile`. -/
def reconcile (policy : StoragePolicy) (host : StorageHost) (activeJobIds : List String) :
    LedgerOp StorageDecision :=
  Prog.handle errorDecision
    (require (decide (activeJobIds.dedup.length ≤ policy.limits.maxReservations))
        (.policy .invalidRequest "active job set exceeds the configured reservation bound"
          [("max_reservations", .num policy.limits.maxReservations "")]) >>= fun _ =>
      ofExcept (validateJobIds activeJobIds) >>= fun active =>
        ofExcept host.lock >>= fun _ =>
          readLedger policy.limits host >>= fun ledger =>
            let released := sortByKey DurableRecordId.value
              ((ledger.reservations.filter fun record => record.jobId ∉ active).map
                ReservationRecord.jobId)
            if released = [] then
              pure
                { allowed := true, reason := .reconciled,
                  message := "reservation ledger already matches the active job set",
                  status := none,
                  details := [("released_job_ids", .arr []),
                    ("ledger_generation", .num ledger.generation "")] }
            else
              let retained := ledger.keeping fun record => record.jobId ∈ active
              writeLedger policy.limits host retained >>= fun _ =>
                pure
                  { allowed := true, reason := .reconciled,
                    message := "stale storage reservations were released", status := none,
                    details := [("released_job_ids", jobIdList released),
                      ("ledger_generation", .num retained.generation "")] })

/-- The amounts of an active job. -/
structure ActiveReservation where
  jobId : DurableRecordId
  coreBytes : Nat
  spoolBytes : Nat

/-- The key of `sorted(normalized.items())`, whose job ids are distinct. -/
def ActiveReservation.order (active : ActiveReservation) : String := active.jobId.value

/-- `normalized[job_id] = amounts`. -/
def assignReservation (normalized : List ActiveReservation) (active : ActiveReservation) :
    List ActiveReservation :=
  match normalized with
  | [] => [active]
  | first :: rest =>
    if first.jobId = active.jobId then active :: rest else first :: assignReservation rest active

/-- The loop of `reconcile_reservations` over its argument, in which anything but a tuple of two
integers stands for none. -/
def normalizeReservations (limits : StorageLimits) (normalized : List ActiveReservation) :
    List (String × Option (Int × Int)) → Except StorageError (List ActiveReservation)
  | [] => .ok normalized
  | (jobId, amounts) :: rest => do
    let id ← validateJobId jobId
    match amounts with
    | none =>
      .error (.policy .invalidRequest "active reservation amounts must be a two-integer tuple"
        [("job_id", .str jobId)])
    | some (coreBytes, spoolBytes) =>
      let valid ← validateReservationBytes limits coreBytes spoolBytes
      normalizeReservations limits (assignReservation normalized
          { jobId := id, coreBytes := valid.1, spoolBytes := valid.2 }) rest

/-- The conflict of an active job with its record. -/
def reservationConflict (ledger : LedgerState) (active : ActiveReservation) : Option Json :=
  match ledger.find active.jobId with
  | none => none
  | some existing =>
    if existing.coreBytes ≠ active.coreBytes ∨ existing.spoolBytes ≠ active.spoolBytes then
      some (.obj [("job_id", .str active.jobId.value), ("existing", .obj existing.toDict),
          ("requested", .obj [("core_bytes", .num active.coreBytes ""),
            ("spool_bytes", .num active.spoolBytes "")])])
    else none

/-- The record that `reconcile_reservations` proposes for an active job. -/
def adoptedRecord (ledger : LedgerState) (now : String) (active : ActiveReservation) :
    ReservationRecord :=
  (ledger.find active.jobId).getD
    { jobId := active.jobId, coreBytes := active.coreBytes, spoolBytes := active.spoolBytes,
      createdAt := now }

/-- The active jobs without a record. -/
def adoptedJobIds (ledger : LedgerState) (active : List ActiveReservation) : List DurableRecordId :=
  (active.filter fun job => (ledger.find job.jobId).isNone).map ActiveReservation.jobId

/-- `sorted(set(existing_by_job) - set(normalized))`. -/
def releasedJobIds (ledger : LedgerState) (active : List ActiveReservation) :
    List DurableRecordId :=
  sortByKey DurableRecordId.value ((ledger.reservations.map ReservationRecord.jobId).filter
    fun jobId => jobId ∉ active.map ActiveReservation.jobId)

/-- `bool(adopted or released)`. -/
def reconciliationChanges (ledger : LedgerState) (active : List ActiveReservation) : Bool :=
  !((adoptedJobIds ledger active).isEmpty && (releasedJobIds ledger active).isEmpty)

/-- `reconcile_reservations`, under the lock, once the active set is sorted. -/
def reconcileActive (policy : StoragePolicy) (host : StorageHost) (ledger : LedgerState)
    (active : List ActiveReservation) : LedgerOp StorageDecision :=
  let conflicts := active.filterMap (reservationConflict ledger)
  if conflicts ≠ [] then
    pure
      { allowed := false, reason := .reservationConflict,
        message := "active jobs disagree with durable storage reservations", status := none,
        details := [("conflicts", .arr conflicts)] }
  else
    ofExcept (formatTimestamp host.clock) >>= fun now =>
      let adopted := adoptedJobIds ledger active
      let released := releasedJobIds ledger active
      let changed := reconciliationChanges ledger active
      let proposed : LedgerState :=
        { generation := ledger.generation + if changed then 1 else 0,
          reservations := active.map (adoptedRecord ledger now) }
      let persist : LedgerOp Unit :=
        if changed then writeLedger policy.limits host proposed else pure ()
      ofExcept (takeSnapshot policy host proposed.reservations proposed.generation none) >>=
        fun snapshot =>
          if snapshot.healthy = false then
            persist >>= fun _ =>
              pure
                { allowed := false, reason := snapshot.reason,
                  message := "active storage reservations violate a configured safety threshold",
                  status := some snapshot,
                  details := [("adopted_job_ids", jobIdList adopted),
                    ("released_job_ids", jobIdList released), ("persisted", .bool changed)] }
          else
            persist >>= fun _ =>
              pure
                { allowed := true, reason := .reconciled,
                  message := if changed then "active jobs and storage reservations were reconciled"
                    else "reservation ledger already matches active jobs",
                  status := some snapshot,
                  details := [("adopted_job_ids", jobIdList adopted),
                    ("released_job_ids", jobIdList released),
                    ("ledger_generation", .num proposed.generation ""),
                    ("persisted", .bool changed)] }

/-- `reconcile_reservations`. -/
def reconcileReservations (policy : StoragePolicy) (host : StorageHost)
    (activeReservations : List (String × Option (Int × Int))) : LedgerOp StorageDecision :=
  Prog.handle errorDecision
    (require (decide (activeReservations.length ≤ policy.limits.maxReservations))
        (.policy .invalidRequest "active reservation set exceeds the configured reservation bound"
          [("max_reservations", .num policy.limits.maxReservations "")]) >>= fun _ =>
      ofExcept (normalizeReservations policy.limits [] activeReservations) >>=
        fun normalized =>
          ofExcept host.lock >>= fun _ =>
            readLedger policy.limits host >>= fun ledger =>
              reconcileActive policy host ledger (sortByKey ActiveReservation.order normalized))

end

end ClioQueue
