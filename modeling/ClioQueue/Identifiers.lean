/-
# Durable identifiers and filesystem keys

`clio_relay/identifiers.py` (`validate_durable_record_id`, `filesystem_key`),
the identifier helpers of `clio_relay/queue_layout.py` (`durable_key`,
`require_durable_record_id`, `label_key`, `safe_global_record_id`) and
`_stable_ref_token`.

A durable record id is a short lowercase portable name; `DurableRecordId`
carries the validation, so that every id of a record is a valid file name.
Operator labels (clusters, owner sessions) are mapped to file names by
`filesystem_key`: portable labels are kept, everything else, and every label in
the reserved `k2-` namespace, becomes a SHA-256 digest.  Digests are kept
symbolically, as the text that was hashed (`FilesystemKey.digest`, `RefToken`):
two digests are equal exactly when their texts are.
-/

import Mathlib.Tactic.Common

namespace ClioQueue

/-- The exceptions raised by the queue: `QueueConflictError`, `ValueError`,
`NotFoundError`, `ConfigurationError` and the `OverflowError` of date arithmetic. -/
inductive RelayError where
  | conflict (message : String)
  | value (message : String)
  | notFound (message : String)
  | configuration (message : String)
  | overflow (message : String)
  deriving DecidableEq, Repr

/-- `DURABLE_RECORD_ID_MAX_BYTES`. -/
def durableRecordIdMaxBytes : Nat := 128

/-- `DURABLE_RECORD_ID_PATTERN`. -/
def durableRecordIdPattern : String := "^[a-z0-9][a-z0-9_-]\x7b0,127\x7d$"

/-- `_WINDOWS_RESERVED_DEVICE_BASENAMES`. -/
def windowsReservedDeviceBasenames : List String :=
  ["aux", "con", "nul", "prn",
    "com1", "com2", "com3", "com4", "com5", "com6", "com7", "com8", "com9",
    "lpt1", "lpt2", "lpt3", "lpt4", "lpt5", "lpt6", "lpt7", "lpt8", "lpt9"]

/-- The characters `[a-z0-9]`. -/
def lowerAlnum (c : Char) : Bool := ('a' ≤ c && c ≤ 'z') || ('0' ≤ c && c ≤ '9')

/-- A full match of `DURABLE_RECORD_ID_PATTERN`. -/
def matchesDurableRecordId (value : String) : Bool :=
  match value.toList with
  | [] => false
  | c :: cs =>
    lowerAlnum c && cs.all (fun c => lowerAlnum c || c == '_' || c == '-') &&
      decide (cs.length ≤ 127)

/-- Whether `validate_durable_record_id` returns its argument. -/
def isDurableRecordId (value : String) : Bool :=
  decide (value.utf8ByteSize ≤ durableRecordIdMaxBytes) && matchesDurableRecordId value &&
    !windowsReservedDeviceBasenames.contains value

/-- A validated portable durable record id. -/
structure DurableRecordId where
  value : String
  valid : isDurableRecordId value = true
  deriving DecidableEq

instance : ToString DurableRecordId := ⟨DurableRecordId.value⟩

theorem DurableRecordId.eq_of_value {a b : DurableRecordId} (h : a.value = b.value) : a = b := by
  cases a
  cases b
  cases h
  rfl

/-- `validate_durable_record_id`, on strings. -/
def validateDurableRecordId (value : String) : Except RelayError DurableRecordId :=
  if h : isDurableRecordId value = true then .ok ⟨value, h⟩
  else if value.utf8ByteSize > durableRecordIdMaxBytes then
    .error (.value s!"durable record ID must be at most {durableRecordIdMaxBytes} UTF-8 bytes")
  else if !matchesDurableRecordId value then
    .error (.value
      s!"durable record ID must match {durableRecordIdPattern}: lowercase portable ASCII only")
  else
    .error (.value s!"durable record ID is a reserved Windows device basename: {value}")

/-- `QueueLayout.require_durable_record_id`. -/
def requireDurableRecordId (value field : String) : Except RelayError DurableRecordId :=
  match validateDurableRecordId value with
  | .ok id => .ok id
  | .error (.value message) => .error (.value s!"invalid {field}: {message}")
  | .error error => .error error

/-- `QueueLayout.durable_key`. -/
def durableKey (value : String) : Except RelayError DurableRecordId :=
  requireDurableRecordId value "record_id"

/-- `safe_global_record_id`, on strings. -/
def safeGlobalRecordId (value : String) : Bool := isDurableRecordId value

theorem requireDurableRecordId_ok {value field : String} {id : DurableRecordId}
    (h : requireDurableRecordId value field = .ok id) : id.value = value := by
  unfold requireDurableRecordId validateDurableRecordId at h
  by_cases hv : isDurableRecordId value = true
  · rw [dif_pos hv] at h
    cases h
    rfl
  · rw [dif_neg hv] at h
    split_ifs at h

@[simp]
theorem requireDurableRecordId_value (id : DurableRecordId) (field : String) :
    requireDurableRecordId id.value field = .ok id := by
  simp [requireDurableRecordId, validateDurableRecordId, id.valid]

/-! ### Filesystem keys -/

/-- `FILESYSTEM_KEY_PREFIX`. -/
def filesystemKeyPrefix : String := "k2-"

/-- `str.startswith`. -/
def startsWith (value start : String) : Bool := start.toList.isPrefixOf value.toList

/-- A path component made from an operator label: the label itself, or
`k2-` and the hex digest of the domain and the label. -/
inductive FilesystemKey where
  | plain (value : String)
  | digest (domain value : String)
  deriving DecidableEq

/-- `_portable_passthrough_key`. -/
def portablePassthroughKey (value : String) : Bool :=
  !startsWith value filesystemKeyPrefix && isDurableRecordId value

/-- `filesystem_key`, for the fixed domains of the queue. -/
def filesystemKey (value domain : String) : Except RelayError FilesystemKey :=
  if value = "" then .error (.value "filesystem key value must not be empty")
  else if portablePassthroughKey value then .ok (.plain value)
  else .ok (.digest domain value)

/-- `QueueLayout.label_key`. -/
def labelKey (value domain : String) : Except RelayError FilesystemKey :=
  filesystemKey value domain

/-- A digest of joined strings (`_stable_ref_token`), kept as the strings. -/
structure RefToken where
  values : List String
  deriving DecidableEq

/-- `_stable_ref_token`. -/
def stableRefToken (values : List String) : RefToken := ⟨values⟩

@[simp]
theorem stableRefToken_inj {a b : List String} : stableRefToken a = stableRefToken b ↔ a = b := by
  simp [stableRefToken]

end ClioQueue
