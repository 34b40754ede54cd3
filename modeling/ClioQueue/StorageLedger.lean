/-
# The storage reservation ledger: records and codec

`clio_relay/storage_policy_types.py` (`StorageReason`, `StoragePolicyError`,
`StorageLimits`, `ReservationRecord`, `_LedgerState`) and
`clio_relay/storage_ledger_codec.py`.

The ledger is one JSON document: a generation, the reservations in the order of their
job ids, and a checksum of both.  `Canonical` is the form in which it is written;
`decodeLedger` accepts canonical ledgers only, and returns what `encodeLedger` was given.
The digest, the length of the written text and the text of a date are those of
the platform (`StoragePlatform`).
-/

import Mathlib
import ClioQueue.Durable.KeyedList
import ClioQueue.Records

namespace ClioQueue

open Durable

/-! ### Reasons and errors -/

/-- `StorageReason`: the reasons of the ledger and of the admission check. -/
inductive StorageReason where
  | healthy | reserved | reservationIdempotent | reservationReleased | reservationAbsent
  | reconciled | invalidRequest | reservationConflict | perJobLimit | coreHighWater
  | spoolHighWater | totalHighWater | filesystemFreeReserve | ledgerMalformed | ledgerOversized
  | ledgerUnsafe | ledgerCapacity | lockTimeout | persistenceFailure | scanRootInvalid
  | scanUnsafeEntry | scanChanged | scanIoError | scanEntryLimit | scanDepthLimit
  | scanByteLimit | filesystemQueryFailed
  deriving DecidableEq, Repr

/-- What the storage policy raises: a `StoragePolicyError`, or the `TypeError` of
`hmac.compare_digest` for a checksum that is not ASCII. -/
inductive StorageError where
  | policy (reason : StorageReason) (message : String) (details : Dict)
  | typeError (message : String)
  deriving DecidableEq

/-- A `StoragePolicyError` without details. -/
def malformed (message : String) : StorageError := .policy .ledgerMalformed message []

/-- `StorageLimits`: the limits that the ledger and the admission check read, with the checks of
`__post_init__`. -/
structure StorageLimits where
  coreHighWaterBytes : Nat
  spoolHighWaterBytes : Nat
  totalHighWaterBytes : Nat
  minimumFreeBytes : Nat
  maxJobReservationBytes : Nat
  maxScanEntries : Nat
  maxScanDepth : Nat
  maxScanAccountedBytes : Nat
  maxLedgerBytes : Nat
  maxReservations : Nat
  maxJobReservationBytes_pos : 0 < maxJobReservationBytes
  maxReservations_pos : 0 < maxReservations
  core_le_total : coreHighWaterBytes ≤ totalHighWaterBytes
  spool_le_total : spoolHighWaterBytes ≤ totalHighWaterBytes
  job_le_scan : maxJobReservationBytes ≤ maxScanAccountedBytes

/-- `ReservationRecord`. -/
structure ReservationRecord where
  jobId : DurableRecordId
  coreBytes : Nat
  spoolBytes : Nat
  createdAt : String
  deriving DecidableEq

/-- The key of `sorted(..., key=lambda item: item.job_id)`. -/
def ReservationRecord.order (record : ReservationRecord) : String := record.jobId.value

/-- `ReservationRecord.to_dict`. -/
def ReservationRecord.toDict (record : ReservationRecord) : Dict :=
  [("job_id", .str record.jobId.value),
    ("core_bytes", .num record.coreBytes ""),
    ("spool_bytes", .num record.spoolBytes ""),
    ("created_at", .str record.createdAt)]

/-- `_LedgerState`. -/
structure LedgerState where
  generation : Nat
  reservations : List ReservationRecord
  deriving DecidableEq

/-- The standard library as the storage policy uses it: the SHA-256 digest of the canonical text of a
document, the length of the text that is written for it, `datetime.isoformat` of a UTC date without
its offset, and the offset that `datetime.fromisoformat` reads (none for a `ValueError`). -/
class StoragePlatform where
  sha256 : Json → String
  sha256_ascii : ∀ value, (sha256 value).toList.all (·.toNat < 128) = true
  documentBytes : Json → Nat
  documentBytes_pos : ∀ value, 0 < documentBytes value
  isoformat : Time → String
  utcOffset : String → Option (Option Int)
  utcOffset_isoformat : ∀ time, utcOffset (isoformat time ++ "+00:00") = some (some 0)

/-! ### Validation -/

/-- `_validate_job_id`. -/
def validateJobId (jobId : String) : Except StorageError DurableRecordId :=
  match validateDurableRecordId jobId with
  | .ok id => .ok id
  | .error _ =>
    .error (.policy .invalidRequest "job_id must be a lowercase portable durable record ID" [])

/-- `_validate_reservation_bytes`: the amounts of a reservation. -/
def validateReservationBytes (limits : StorageLimits) (coreBytes spoolBytes : Int) :
    Except StorageError (Nat × Nat) :=
  if coreBytes < 0 then
    .error (.policy .invalidRequest "core_bytes must be a non-negative integer" [])
  else if spoolBytes < 0 then
    .error (.policy .invalidRequest "spool_bytes must be a non-negative integer" [])
  else if coreBytes + spoolBytes = 0 then
    .error (.policy .invalidRequest "a storage reservation must request at least one byte" [])
  else if coreBytes + spoolBytes > limits.maxJobReservationBytes then
    .error (.policy .perJobLimit "job storage reservation exceeds the configured per-job limit"
      [("requested_bytes", .num (coreBytes + spoolBytes) ""),
        ("max_job_reservation_bytes", .num limits.maxJobReservationBytes "")])
  else .ok (coreBytes.toNat, spoolBytes.toNat)

/-- What the clock of the policy returns: a naive date, or an aware one as its UTC date. -/
inductive ClockReading where
  | naive
  | aware (time : Time)

section

variable [StoragePlatform]

/-- `_format_timestamp`. -/
def formatTimestamp : ClockReading → Except StorageError String
  | .naive =>
    .error (.policy .invalidRequest
      "storage policy clock must return a timezone-aware datetime" [])
  | .aware time => .ok (StoragePlatform.isoformat time ++ "Z")

/-- `value.removesuffix("Z") + "+00:00"`, for a value that ends with `Z`. -/
def offsetForm (value : String) : String := String.ofList value.toList.dropLast ++ "+00:00"

/-- `_parse_timestamp`, on strings. -/
def parseTimestamp (value : String) : Except StorageError String :=
  if value.toList.getLast? = some 'Z' then
    match StoragePlatform.utcOffset (offsetForm value) with
    | none => .error (malformed "reservation created_at is invalid")
    | some (some 0) => .ok value
    | some _ => .error (malformed "reservation created_at must use UTC")
  else .error (malformed "reservation created_at must be an RFC 3339 UTC timestamp")

/-- A timestamp that the decoder keeps. -/
def IsTimestamp (value : String) : Prop := parseTimestamp value = .ok value

/-- **A formatted timestamp parses.** -/
theorem isTimestamp_of_format {reading : ClockReading} {value : String}
    (h : formatTimestamp reading = .ok value) : IsTimestamp value := by
  rcases reading with _ | time
  · cases h
  · cases h
    have hlist : (StoragePlatform.isoformat time ++ "Z").toList =
        (StoragePlatform.isoformat time).toList ++ ['Z'] := String.toList_append
    have hform : offsetForm (StoragePlatform.isoformat time ++ "Z") =
        StoragePlatform.isoformat time ++ "+00:00" := by
      rw [offsetForm, hlist, List.dropLast_concat, String.ofList_toList]
    unfold IsTimestamp parseTimestamp
    rw [hlist, List.getLast?_concat, if_pos rfl, hform, StoragePlatform.utcOffset_isoformat]
    rfl

theorem parseTimestamp_ok {value found : String} (h : parseTimestamp value = .ok found) :
    found = value := by
  unfold parseTimestamp at h
  split at h
  · split at h <;> cases h
    rfl
  · cases h

end

@[simp]
theorem validateJobId_value (id : DurableRecordId) : validateJobId id.value = .ok id := by
  simp [validateJobId, validateDurableRecordId, id.valid]

/-- Amounts that a reservation may have. -/
def WithinJobLimit (limits : StorageLimits) (coreBytes spoolBytes : Nat) : Prop :=
  0 < coreBytes + spoolBytes ∧ coreBytes + spoolBytes ≤ limits.maxJobReservationBytes

/-- **Valid amounts are within the limit of a job.** -/
theorem validateReservationBytes_ok {limits : StorageLimits} {coreBytes spoolBytes : Int}
    {amounts : Nat × Nat} (h : validateReservationBytes limits coreBytes spoolBytes = .ok amounts) :
    WithinJobLimit limits amounts.1 amounts.2 ∧ coreBytes = amounts.1 ∧ spoolBytes = amounts.2 := by
  unfold validateReservationBytes at h
  split_ifs at h with hcore hspool hzero hlim
  cases h
  unfold WithinJobLimit
  refine ⟨⟨?_, ?_⟩, ?_, ?_⟩
  · show 0 < coreBytes.toNat + spoolBytes.toNat
    omega
  · show coreBytes.toNat + spoolBytes.toNat ≤ _
    omega
  · show coreBytes = (coreBytes.toNat : Int)
    omega
  · show spoolBytes = (spoolBytes.toNat : Int)
    omega

/-! ### Codec -/

section

variable [StoragePlatform]

/-- `_LEDGER_SCHEMA`. -/
def ledgerSchema : String := "clio-relay.storage-reservations.v1"

/-- `json.dumps(value, sort_keys=True)` of the payload, hashed. -/
def ledgerChecksum (generation reservations : Json) : String :=
  "sha256:" ++ StoragePlatform.sha256 (Json.sortKeys (.obj
    [("schema", .str ledgerSchema), ("generation", generation), ("reservations", reservations)]))

/-- `_encode_ledger`: the document that the written text parses to. -/
def encodeLedger (ledger : LedgerState) : Json :=
  let generation : Json := .num ledger.generation ""
  let reservations : Json := .arr (ledger.reservations.map fun record => .obj record.toDict)
  Json.sortKeys (.obj
    [("schema", .str ledgerSchema), ("generation", generation), ("reservations", reservations),
      ("checksum", .str (ledgerChecksum generation reservations))])

/-- `set(data) == keys`. -/
def hasKeys (data : Dict) (keys : List String) : Bool :=
  Dict.onlyHas data keys && keys.all fun key => Dict.has data key

/-- One record of the loop of `_decode_ledger`, the job ids before it already seen. -/
def decodeRecord (limits : StorageLimits) (seen : List DurableRecordId) (rawRecord : Json) :
    Except StorageError ReservationRecord :=
  match rawRecord with
  | .obj recordData =>
    if hasKeys recordData ["job_id", "core_bytes", "spool_bytes", "created_at"] = false then
      .error (malformed "storage reservation ledger contains an invalid record")
    else
      match (Dict.get recordData "job_id").str?.map validateJobId with
      | none | some (.error _) =>
        .error (malformed "storage reservation ledger contains an invalid job id")
      | some (.ok jobId) =>
        if jobId ∈ seen then
          .error (malformed "storage reservation ledger contains duplicate job ids")
        else
          match (Dict.get recordData "core_bytes").int? with
          | some (.ofNat coreBytes) =>
            match (Dict.get recordData "spool_bytes").int? with
            | some (.ofNat spoolBytes) =>
              if coreBytes + spoolBytes = 0 then
                .error (malformed "storage reservation cannot be empty")
              else if coreBytes + spoolBytes > limits.maxJobReservationBytes then
                .error (malformed "stored reservation exceeds the configured per-job limit")
              else
                match (Dict.get recordData "created_at").str?.map parseTimestamp with
                | none =>
                  .error (malformed "reservation created_at must be an RFC 3339 UTC timestamp")
                | some (.error error) => .error error
                | some (.ok createdAt) => .ok { jobId, coreBytes, spoolBytes, createdAt }
            | _ => .error (malformed "storage reservation spool_bytes is invalid")
          | _ => .error (malformed "storage reservation core_bytes is invalid")
  | _ => .error (malformed "storage reservation ledger contains an invalid record")

/-- The loop of `_decode_ledger` over the records. -/
def decodeRecords (limits : StorageLimits) (seen : List DurableRecordId) :
    List Json → Except StorageError (List ReservationRecord)
  | [] => .ok []
  | rawRecord :: rest =>
    match decodeRecord limits seen rawRecord with
    | .error error => .error error
    | .ok record =>
      match decodeRecords limits (record.jobId :: seen) rest with
      | .error error => .error error
      | .ok records => .ok (record :: records)

/-- `hmac.compare_digest`, on strings: it raises for text that is not ASCII. -/
def compareDigest (found expected : String) : Except StorageError Bool :=
  if found.toList.all (·.toNat < 128) && expected.toList.all (·.toNat < 128) then
    .ok (found = expected)
  else .error (.typeError "comparing strings with non-ASCII characters is not supported")

/-- The check of the checksum in `_decode_ledger`. -/
def checkChecksum (checksum : Json) (expected : String) : Except StorageError Unit :=
  match checksum with
  | .str found =>
    match compareDigest found expected with
    | .ok true => .ok ()
    | .ok false =>
      .error (malformed "storage reservation ledger checksum does not match its content")
    | .error error => .error error
  | _ => .error (malformed "storage reservation ledger checksum does not match its content")

/-- `_decode_ledger`. -/
def decodeLedger (limits : StorageLimits) (value : Json) : Except StorageError LedgerState :=
  match value with
  | .obj envelope =>
    if hasKeys envelope ["schema", "generation", "reservations", "checksum"] = false then
      .error (malformed "storage reservation ledger has an invalid envelope")
    else if Dict.get envelope "schema" ≠ .str ledgerSchema then
      .error (malformed "storage reservation ledger has an unsupported schema")
    else
      match (Dict.get envelope "generation").int? with
      | some (.ofNat generation) =>
        match Dict.get envelope "reservations" with
        | .arr rawReservations =>
          if rawReservations.length > limits.maxReservations then
            .error (.policy .ledgerCapacity
              "storage reservation ledger exceeds its configured record limit"
              [("max_reservations", .num limits.maxReservations "")])
          else
            match checkChecksum (Dict.get envelope "checksum")
              (ledgerChecksum (.num generation "") (.arr rawReservations)) with
            | .error error => .error error
            | .ok () =>
              match decodeRecords limits [] rawReservations with
              | .error error => .error error
              | .ok records =>
                if records.map ReservationRecord.order ≠
                    sortByKey id (records.map ReservationRecord.order) then
                  .error (malformed
                    "storage reservation ledger records are not in canonical order")
                else .ok { generation, reservations := records }
        | _ => .error (malformed "storage reservation ledger records must be a list")
      | _ => .error (malformed "storage reservation ledger generation is invalid")
  | _ => .error (malformed "storage reservation ledger has an invalid envelope")

/-- **The form in which a ledger is kept**: the job ids increase strictly, and the records are within
the limits and have UTC timestamps. -/
structure Canonical (limits : StorageLimits) (ledger : LedgerState) : Prop where
  increasing : Increasing ReservationRecord.order ledger.reservations
  count : ledger.reservations.length ≤ limits.maxReservations
  amounts : ∀ record ∈ ledger.reservations, WithinJobLimit limits record.coreBytes record.spoolBytes
  stamped : ∀ record ∈ ledger.reservations, IsTimestamp record.createdAt

/-! ### What is accepted is canonical -/

variable {limits : StorageLimits}
  {ledger : LedgerState} {seen : List DurableRecordId} {records : List ReservationRecord}
  {record : ReservationRecord}

/-- A record that is decoded has a job that was not read before, amounts within the limits of a job
and a timestamp. -/
theorem decodeRecord_ok {rawRecord : Json} (h : decodeRecord limits seen rawRecord = .ok record) :
    record.jobId ∉ seen ∧ WithinJobLimit limits record.coreBytes record.spoolBytes ∧
      IsTimestamp record.createdAt := by
  unfold decodeRecord at h
  split at h
  · split_ifs at h
    split at h
    · cases h
    · cases h
    · split_ifs at h with hseen
      split at h
      · split at h
        · split_ifs at h with hzero hlim
          split at h
          · cases h
          · cases h
          · rename_i hstamp
            obtain ⟨_, -, hv⟩ := Option.map_eq_some_iff.1 hstamp
            have hsame := parseTimestamp_ok hv
            cases h
            refine ⟨hseen, ⟨Nat.pos_of_ne_zero hzero, not_lt.1 hlim⟩, ?_⟩
            show parseTimestamp _ = .ok _
            rw [hsame]
            rw [hsame] at hv
            exact hv
        · cases h
      · cases h
  · cases h

/-- **The records that the loop keeps** have new job ids and valid amounts and timestamps. -/
theorem decodeRecords_ok {rawRecords : List Json}
    (h : decodeRecords limits seen rawRecords = .ok records) :
    (records.map ReservationRecord.jobId).Nodup ∧ records.length = rawRecords.length ∧
      ∀ record ∈ records, record.jobId ∉ seen ∧
        WithinJobLimit limits record.coreBytes record.spoolBytes ∧
        IsTimestamp record.createdAt := by
  induction rawRecords generalizing seen records with
  | nil =>
    cases h
    exact ⟨List.nodup_nil, rfl, nofun⟩
  | cons rawRecord rest ih =>
    unfold decodeRecords at h
    split at h
    · cases h
    · rename_i record hrec
      split at h
      · cases h
      · rename_i _ htail
        cases h
        obtain ⟨hnd, hlen, htail⟩ := ih htail
        have hhead := decodeRecord_ok hrec
        refine ⟨?_, ?_, fun other hother => ?_⟩
        · rw [List.map_cons, List.nodup_cons]
          refine ⟨fun hin => ?_, hnd⟩
          obtain ⟨other, hother, hid⟩ := List.mem_map.1 hin
          exact (htail other hother).1 (hid ▸ .head _)
        · rw [List.length_cons, List.length_cons, hlen]
        · rcases List.mem_cons.1 hother with rfl | hother
          · exact hhead
          · obtain ⟨hnew, hrest⟩ := htail other hother
            exact ⟨fun hin => hnew (.tail _ hin), hrest⟩

omit [StoragePlatform] in
theorem order_nodup (h : (records.map ReservationRecord.jobId).Nodup) :
    (records.map ReservationRecord.order).Nodup := by
  have hinj : Function.Injective DurableRecordId.value := by
    rintro ⟨a, _⟩ ⟨b, _⟩ rfl
    rfl
  have hmap := h.map hinj
  rwa [List.map_map] at hmap

/-- **A ledger that is accepted is canonical.** -/
theorem decodeLedger_ok {value : Json} (h : decodeLedger limits value = .ok ledger) :
    Canonical limits ledger := by
  unfold decodeLedger at h
  split at h
  · split_ifs at h
    split at h
    · split at h
      · split_ifs at h with hcnt
        split at h
        · cases h
        · split at h
          · cases h
          · rename_i records hrecs
            split_ifs at h with hsort
            cases h
            obtain ⟨hnd, _, hrecs⟩ := decodeRecords_ok hrecs
            have hpairwise : (records.map ReservationRecord.order).Pairwise fun a b => a ≤ b := by
              rw [not_not.1 hsort]
              exact pairwise_sortByKey id _
            refine ⟨increasing_of_nodup (List.pairwise_map.1 hpairwise) (order_nodup hnd), ?_,
              fun record hmem => (hrecs record hmem).2.1,
              fun record hmem => (hrecs record hmem).2.2⟩
            show records.length ≤ limits.maxReservations
            omega
      · cases h
    · cases h
  · cases h

/-! ### What is written is read back -/

/-- A record in the written order of its keys. -/
def ReservationRecord.written (record : ReservationRecord) : Dict :=
  [("core_bytes", .num record.coreBytes ""),
    ("created_at", .str record.createdAt),
    ("job_id", .str record.jobId.value),
    ("spool_bytes", .num record.spoolBytes "")]

section

omit [StoragePlatform]

theorem sortKeys_toDict (record : ReservationRecord) :
    Json.sortKeys (.obj record.toDict) = .obj record.written := by
  simp +decide [ReservationRecord.toDict, ReservationRecord.written, Json.sortKeys,
    Json.sortFields, List.orderedInsert]

theorem sortKeys_written (record : ReservationRecord) :
    Json.sortKeys (.obj record.written) = .obj record.written := by
  simp +decide [ReservationRecord.written, Json.sortKeys, Json.sortFields]

theorem sortItems_map {f g : ReservationRecord → Json}
    (h : ∀ record, Json.sortKeys (f record) = g record) (records : List ReservationRecord) :
    Json.sortItems (records.map f) = records.map g := by
  induction records with
  | nil => rfl
  | cons record records ih =>
    rw [List.map_cons, List.map_cons, Json.sortItems, h, ih]

end

/-- The records of a ledger in the written order of their keys. -/
def writtenRecords (ledger : LedgerState) : Json :=
  .arr (ledger.reservations.map fun record => .obj record.written)

/-- **The written document.** -/
theorem encodeLedger_eq (ledger : LedgerState) :
    encodeLedger ledger = .obj
      [("checksum", .str (ledgerChecksum (.num ledger.generation "") (writtenRecords ledger))),
        ("generation", .num ledger.generation ""),
        ("reservations", writtenRecords ledger),
        ("schema", .str ledgerSchema)] := by
  have htoDict := sortItems_map sortKeys_toDict ledger.reservations
  have hwritten := sortItems_map sortKeys_written ledger.reservations
  simp +decide [encodeLedger, ledgerChecksum, writtenRecords, Json.sortKeys, Json.sortFields,
    List.orderedInsert, htoDict, hwritten]

/-- A record within the limits of a job is read back from what is written of it, unless its job was
read before. -/
theorem decodeRecord_written (hseen : record.jobId ∉ seen)
    (hamounts : WithinJobLimit limits record.coreBytes record.spoolBytes)
    (hstamp : IsTimestamp record.createdAt) :
    decodeRecord limits seen (.obj record.written) = .ok record := by
  have hparse : parseTimestamp record.createdAt = .ok record.createdAt := hstamp
  obtain ⟨_, _⟩ := hamounts
  have hzero : ¬ record.coreBytes + record.spoolBytes = 0 := by omega
  have hover : ¬ record.coreBytes + record.spoolBytes > limits.maxJobReservationBytes := by omega
  have hkeys : hasKeys record.written
      ["job_id", "core_bytes", "spool_bytes", "created_at"] = true := by
    simp +decide [hasKeys, Dict.onlyHas, Dict.has, ReservationRecord.written, List.lookup]
  have hjob : Dict.get record.written "job_id" = .str record.jobId.value := by
    simp +decide [Dict.get, ReservationRecord.written, List.lookup]
  have hcore : Dict.get record.written "core_bytes" = .num record.coreBytes "" := by
    simp +decide [Dict.get, ReservationRecord.written]
  have hspool : Dict.get record.written "spool_bytes" = .num record.spoolBytes "" := by
    simp +decide [Dict.get, ReservationRecord.written, List.lookup]
  have hcreate : Dict.get record.written "created_at" = .str record.createdAt := by
    simp +decide [Dict.get, ReservationRecord.written, List.lookup]
  have hnat : ∀ n : Nat, (Json.num n "").int? = some (Int.ofNat n) := fun _ => rfl
  unfold decodeRecord
  simp only [hkeys, hjob, hcore, hspool, hcreate, hnat, Json.str?, Option.map_some,
    validateJobId_value, if_neg hseen, hparse, if_neg hzero, if_neg hover,
    Bool.true_eq_false, if_false]

/-- **The loop reads back the written records.** -/
theorem decodeRecords_written (hnd : (records.map ReservationRecord.jobId).Nodup)
    (hseen : ∀ record ∈ records, record.jobId ∉ seen)
    (hamounts : ∀ record ∈ records, WithinJobLimit limits record.coreBytes record.spoolBytes)
    (hstamps : ∀ record ∈ records, IsTimestamp record.createdAt) :
    decodeRecords limits seen (records.map fun record => .obj record.written) = .ok records := by
  induction records generalizing seen with
  | nil => rfl
  | cons record records ih =>
    rw [List.map_cons, List.nodup_cons] at hnd
    rw [List.map_cons]
    unfold decodeRecords
    rw [decodeRecord_written (hseen _ List.mem_cons_self) (hamounts _ List.mem_cons_self)
      (hstamps _ List.mem_cons_self)]
    have hrest : ∀ other ∈ records, other.jobId ∉ record.jobId :: seen := by
      intro other hother hin
      rcases List.mem_cons.1 hin with hid | hin
      · exact hnd.1 (hid ▸ List.mem_map_of_mem hother)
      · exact hseen _ (List.mem_cons_of_mem _ hother) hin
    simp only [ih hnd.2 hrest (fun _ h => hamounts _ (List.mem_cons_of_mem _ h))
      fun _ h => hstamps _ (List.mem_cons_of_mem _ h)]

theorem checkChecksum_self (generation reservations : Json) :
    checkChecksum (.str (ledgerChecksum generation reservations))
      (ledgerChecksum generation reservations) = .ok () := by
  have hascii : (ledgerChecksum generation reservations).toList.all (·.toNat < 128) = true := by
    unfold ledgerChecksum
    rw [String.toList_append, List.all_append, StoragePlatform.sha256_ascii]
    decide
  simp [checkChecksum, compareDigest, hascii]

omit [StoragePlatform] in
theorem jobId_nodup (h : Increasing ReservationRecord.order records) :
    (records.map ReservationRecord.jobId).Nodup := by
  have hkeys : ((records.map ReservationRecord.jobId).map DurableRecordId.value).Nodup := by
    rw [List.map_map]
    exact h.nodup_keys
  exact hkeys.of_map

/-- **A canonical ledger that is written is read back.** -/
theorem decodeLedger_encodeLedger (h : Canonical limits ledger) :
    decodeLedger limits (encodeLedger ledger) = .ok ledger := by
  have hunseen : ∀ record ∈ ledger.reservations, record.jobId ∉ ([] : List DurableRecordId) :=
    fun _ _ => List.not_mem_nil
  have hrecs := decodeRecords_written (jobId_nodup h.increasing) hunseen h.amounts h.stamped
  have hsort : ledger.reservations.map ReservationRecord.order =
      sortByKey id (ledger.reservations.map ReservationRecord.order) := by
    have hincreasing : Increasing id (ledger.reservations.map ReservationRecord.order) :=
      List.pairwise_map.2 h.increasing
    refine hincreasing.eq_of_mem_iff (increasing_sortByKey ?_) fun a => mem_sortByKey.symm
    rw [List.map_id]
    exact h.increasing.nodup_keys
  have hcnt : ¬ (ledger.reservations.map fun record => Json.obj record.written).length >
      limits.maxReservations := by
    rw [List.length_map]
    exact not_lt.2 h.count
  have hchecksum := checkChecksum_self (.num ledger.generation "") (writtenRecords ledger)
  have hnat : (Json.num ledger.generation "").int? = some (Int.ofNat ledger.generation) := rfl
  rw [encodeLedger_eq]
  unfold decodeLedger
  generalize hsum : ledgerChecksum (.num ledger.generation "") (writtenRecords ledger) = sum
    at hchecksum ⊢
  generalize henvelope : ([("checksum", .str sum), ("generation", .num ledger.generation ""),
    ("reservations", writtenRecords ledger), ("schema", .str ledgerSchema)] : Dict) = envelope
  have hkeys : hasKeys envelope ["schema", "generation", "reservations", "checksum"] = true := by
    simp +decide [← henvelope, hasKeys, Dict.onlyHas, Dict.has, List.lookup]
  have hsch : Dict.get envelope "schema" = .str ledgerSchema := by
    simp +decide [← henvelope, Dict.get, List.lookup]
  have hgen : Dict.get envelope "generation" = .num ledger.generation "" := by
    simp +decide [← henvelope, Dict.get, List.lookup]
  have hresvs : Dict.get envelope "reservations" = writtenRecords ledger := by
    simp +decide [← henvelope, Dict.get, List.lookup]
  have hfound : Dict.get envelope "checksum" = .str sum := by
    simp +decide [← henvelope, Dict.get]
  unfold writtenRecords at hsum hresvs
  simp only [hkeys, hsch, hgen, hresvs, hfound, hnat, if_neg hcnt,
    Int.ofNat_eq_natCast, hsum, hchecksum, hrecs, ne_eq, not_true_eq_false, ← hsort,
    Bool.true_eq_false, if_false]

end

end ClioQueue
