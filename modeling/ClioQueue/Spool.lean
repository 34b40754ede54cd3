/-
# The log capture of a job spool: records and codec

`clio_relay/spool.py`: `_StreamCaptureState`, `_PendingCaptureState`, `_LogCaptureState`,
`LogAppendResult` and `_validate_capture_state`.

The capture state of a spool is one JSON document beside the four logs of a job: for each
stream the bytes observed, persisted and dropped, and, while an append runs, the append
itself (`pending`).  `Explained` is what relates a capture state to the logs;
a state that is `Balanced` is read back from the document that is written for it.
-/

import Mathlib
import ClioQueue.Json

namespace ClioQueue

variable {state : LogCaptureState} {quota : Nat}

/-! ### Streams, quotas and states -/

/-- `LogStreamName`. -/
inductive LogStreamName where
  | stdout | stderr | console | consoleStderr
  deriving DecidableEq, Repr

/-- The value of a stream name. -/
def LogStreamName.value : LogStreamName → String
  | .stdout => "stdout"
  | .stderr => "stderr"
  | .console => "console"
  | .consoleStderr => "console_stderr"

/-- `LOG_STREAM_NAMES`. -/
def logStreamNames : List LogStreamName := [.stdout, .stderr, .console, .consoleStderr]

theorem mem_logStreamNames (stream : LogStreamName) : stream ∈ logStreamNames := by
  cases stream <;> decide

/-- The quotas of a `JobSpool`, with the checks of its constructor. -/
structure LogQuotas where
  maxBytesPerStream : Nat
  maxBytesPerJob : Nat
  perStream_pos : 0 < maxBytesPerStream
  perJob_pos : 0 < maxBytesPerJob

/-- What the spool raises. -/
inductive SpoolError where
  | runtime (message : String)
  | value (message : String)
  | unicodeDecode
  deriving DecidableEq

/-- `_StreamCaptureState`. -/
structure StreamCaptureState where
  observedBytes : Nat
  persistedBytes : Nat
  droppedBytes : Nat
  truncated : Bool
  truncationEventRecorded : Bool
  deriving DecidableEq

/-- The state of a stream that has `size` bytes and no record. -/
def StreamCaptureState.existing (size : Nat) : StreamCaptureState where
  observedBytes := size
  persistedBytes := size
  droppedBytes := 0
  truncated := false
  truncationEventRecorded := false

/-- `_PendingCaptureState`. -/
structure PendingCaptureState where
  stream : LogStreamName
  beforePersistedBytes : Nat
  observedBytes : Nat
  acceptedBytes : Nat
  droppedBytes : Nat
  deriving DecidableEq

/-- `_LogCaptureState`. -/
structure LogCaptureState where
  maxBytesPerStream : Nat
  maxBytesPerJob : Nat
  streams : LogStreamName → StreamCaptureState
  pending : Option PendingCaptureState

/-- `sum(f(item) for item in streams.values())`. -/
def sumStreams (f : LogStreamName → Nat) : Nat := (logStreamNames.map f).sum

/-- `sum(item["persisted_bytes"] for item in state["streams"].values())`. -/
def LogCaptureState.persistedJobBytes (state : LogCaptureState) : Nat :=
  sumStreams fun stream => (state.streams stream).persistedBytes

theorem sumStreams_update (f : LogStreamName → Nat) (stream : LogStreamName) (n : Nat) :
    sumStreams (Function.update f stream n) + f stream = sumStreams f + n := by
  cases stream <;> simp [sumStreams, logStreamNames] <;> omega

/-! ### The document -/

/-- `LOG_CAPTURE_SCHEMA`. -/
def logCaptureSchema : String := "clio-relay.log-capture.v1"

/-- The entry of a stream in the document. -/
def StreamCaptureState.toDict (stream : StreamCaptureState) : Dict :=
  [("observed_bytes", .num stream.observedBytes ""),
    ("persisted_bytes", .num stream.persistedBytes ""),
    ("dropped_bytes", .num stream.droppedBytes ""),
    ("truncated", .bool stream.truncated),
    ("truncation_event_recorded", .bool stream.truncationEventRecorded)]

/-- The pending append in the document. -/
def PendingCaptureState.toDict (pending : PendingCaptureState) : Dict :=
  [("stream", .str pending.stream.value),
    ("before_persisted_bytes", .num pending.beforePersistedBytes ""),
    ("observed_bytes", .num pending.observedBytes ""),
    ("accepted_bytes", .num pending.acceptedBytes ""),
    ("dropped_bytes", .num pending.droppedBytes "")]

/-- `json.dump(state, sort_keys=True)`: the document that the written text parses to. -/
def LogCaptureState.document (state : LogCaptureState) : Json :=
  Json.sortKeys (.obj (
    [("schema_version", .str logCaptureSchema),
      ("max_bytes_per_stream", .num state.maxBytesPerStream ""),
      ("max_bytes_per_job", .num state.maxBytesPerJob ""),
      ("streams", .obj (logStreamNames.map fun stream =>
        (stream.value, .obj (state.streams stream).toDict)))] ++
    (state.pending.map fun pending => ("pending", .obj pending.toDict)).toList))

/-- A byte count of the document: `isinstance(value, int)`, not a `bool`, not negative. -/
def byteCount (value : Json) (message : String) : Except SpoolError Nat :=
  match value.int? with
  | some (.ofNat n) => .ok n
  | _ => .error (.runtime message)

/-- `isinstance(value, bool)`. -/
def Json.bool? : Json → Option Bool
  | .bool b => some b
  | _ => none

theorem spool_ok_bind {α β : Type} (a : α) (f : α → Except SpoolError β) :
    (Except.ok a >>= f) = f a := rfl

/-- Raise a `RuntimeError` unless `b` holds. -/
def captureCheck (b : Bool) (message : String) : Except SpoolError Unit :=
  if b then .ok () else .error (.runtime message)

/-- One stream of the loop of `_validate_capture_state`. -/
def validateStream (rawStreams : Dict) (maxPerStream : Nat) (name : LogStreamName) :
    Except SpoolError StreamCaptureState :=
  match Dict.get rawStreams name.value with
  | .obj stream => do
    let field := fun key : String =>
      "invalid " ++ name.value ++ "." ++ key ++ " log capture state"
    let observedBytes ← byteCount (Dict.get stream "observed_bytes") (field "observed_bytes")
    let persistedBytes ← byteCount (Dict.get stream "persisted_bytes") (field "persisted_bytes")
    let droppedBytes ← byteCount (Dict.get stream "dropped_bytes") (field "dropped_bytes")
    match (Dict.get stream "truncated").bool?,
      (Dict.get stream "truncation_event_recorded").bool? with
    | some truncated, some truncationEventRecorded => do
      captureCheck (observedBytes = persistedBytes + droppedBytes)
        ("inconsistent " ++ name.value ++ " byte accounting")
      captureCheck (truncated = decide (droppedBytes > 0))
        ("inconsistent " ++ name.value ++ " truncation accounting")
      captureCheck (!(truncationEventRecorded && !truncated))
        ("invalid " ++ name.value ++ " truncation event state")
      captureCheck (persistedBytes ≤ maxPerStream)
        (name.value ++ " exceeds the recorded stream quota")
      pure { observedBytes, persistedBytes, droppedBytes, truncated, truncationEventRecorded }
    | _, _ => .error (.runtime ("invalid " ++ name.value ++ " truncation state"))
  | _ => .error (.runtime ("missing " ++ name.value ++ " log capture state"))

/-- The loop of `_validate_capture_state` over the streams. -/
def validateStreams (rawStreams : Dict) (maxPerStream : Nat) :
    List LogStreamName → (LogStreamName → StreamCaptureState) →
      Except SpoolError (LogStreamName → StreamCaptureState)
  | [], streams => .ok streams
  | name :: names, streams => do
    let stream ← validateStream rawStreams maxPerStream name
    validateStreams rawStreams maxPerStream names (Function.update streams name stream)

/-- The part of `_validate_capture_state` on a pending append. -/
def validatePending (state : LogCaptureState) (pending : Dict) :
    Except SpoolError PendingCaptureState :=
  match logStreamNames.find? fun name => Dict.get pending "stream" = .str name.value with
  | none => .error (.runtime "invalid pending log capture stream")
  | some stream => do
    let field := fun key : String => "invalid pending " ++ key
    let beforePersistedBytes ← byteCount (Dict.get pending "before_persisted_bytes")
      (field "before_persisted_bytes")
    let observedBytes ← byteCount (Dict.get pending "observed_bytes") (field "observed_bytes")
    let acceptedBytes ← byteCount (Dict.get pending "accepted_bytes") (field "accepted_bytes")
    let droppedBytes ← byteCount (Dict.get pending "dropped_bytes") (field "dropped_bytes")
    captureCheck (beforePersistedBytes = (state.streams stream).persistedBytes)
      "pending log capture baseline differs from stream state"
    captureCheck (observedBytes = acceptedBytes + droppedBytes)
      "inconsistent pending log byte accounting"
    captureCheck ((state.streams stream).persistedBytes + acceptedBytes ≤ state.maxBytesPerStream)
      "pending log capture exceeds the stream quota"
    captureCheck (state.persistedJobBytes + acceptedBytes ≤ state.maxBytesPerJob)
      "pending log capture exceeds the whole-job quota"
    pure { stream, beforePersistedBytes, observedBytes, acceptedBytes, droppedBytes }

/-- `_validate_capture_state`. -/
def validateCaptureState (raw : Json) : Except SpoolError LogCaptureState :=
  match raw with
  | .obj typed =>
    if Dict.get typed "schema_version" ≠ .str logCaptureSchema then
      .error (.runtime "unsupported log capture state schema")
    else
      match (Dict.get typed "max_bytes_per_stream").int?,
        (Dict.get typed "max_bytes_per_job").int?, Dict.get typed "streams" with
      | some (.ofNat (maxBytesPerStream + 1)), some (.ofNat (maxBytesPerJob + 1)),
          .obj rawStreams => do
        let names := logStreamNames.map LogStreamName.value
        captureCheck (Dict.onlyHas rawStreams names && names.all (Dict.has rawStreams))
          "log capture state has unexpected streams"
        let streams ← validateStreams rawStreams (maxBytesPerStream + 1) logStreamNames
          fun _ => .existing 0
        let state : LogCaptureState :=
          { maxBytesPerStream := maxBytesPerStream + 1, maxBytesPerJob := maxBytesPerJob + 1,
            streams, pending := none }
        captureCheck (state.persistedJobBytes ≤ state.maxBytesPerJob)
          "persisted logs exceed the recorded whole-job quota"
        match Dict.get typed "pending" with
        | .null => pure state
        | .obj rawPending => do
          let pending ← validatePending state rawPending
          pure { state with pending := some pending }
        | _ => .error (.runtime "invalid pending log capture state")
      | _, _, _ => .error (.runtime "invalid log capture quota state")
  | _ => .error (.runtime "log capture state was not an object")

/-! ### What is written is read back -/

/-- The account of one stream: nothing observed is unaccounted for. -/
structure StreamCaptureState.Balanced (quota : Nat) (stream : StreamCaptureState) : Prop where
  observed : stream.observedBytes = stream.persistedBytes + stream.droppedBytes
  truncated : stream.truncated = decide (stream.droppedBytes > 0)
  recorded : stream.truncationEventRecorded = true → stream.truncated = true
  within : stream.persistedBytes ≤ quota

/-- The account of a spool. -/
structure LogCaptureState.Balanced (quotas : LogQuotas) (state : LogCaptureState) : Prop where
  perStream : state.maxBytesPerStream = quotas.maxBytesPerStream
  perJob : state.maxBytesPerJob = quotas.maxBytesPerJob
  streams : ∀ stream, (state.streams stream).Balanced quotas.maxBytesPerStream
  within : state.persistedJobBytes ≤ quotas.maxBytesPerJob

/-- A pending append that keeps to the quotas. -/
structure PendingCaptureState.Admitted (state : LogCaptureState) (pending : PendingCaptureState) :
    Prop where
  before : pending.beforePersistedBytes = (state.streams pending.stream).persistedBytes
  observed : pending.observedBytes = pending.acceptedBytes + pending.droppedBytes
  perStream : (state.streams pending.stream).persistedBytes + pending.acceptedBytes ≤
    state.maxBytesPerStream
  perJob : state.persistedJobBytes + pending.acceptedBytes ≤ state.maxBytesPerJob

/-- The entry of a stream in the written order of its keys. -/
def StreamCaptureState.written (stream : StreamCaptureState) : Dict :=
  [("dropped_bytes", .num stream.droppedBytes ""),
    ("observed_bytes", .num stream.observedBytes ""),
    ("persisted_bytes", .num stream.persistedBytes ""),
    ("truncated", .bool stream.truncated),
    ("truncation_event_recorded", .bool stream.truncationEventRecorded)]

/-- The pending append in the written order of its keys. -/
def PendingCaptureState.written (pending : PendingCaptureState) : Dict :=
  [("accepted_bytes", .num pending.acceptedBytes ""),
    ("before_persisted_bytes", .num pending.beforePersistedBytes ""),
    ("dropped_bytes", .num pending.droppedBytes ""),
    ("observed_bytes", .num pending.observedBytes ""),
    ("stream", .str pending.stream.value)]

/-- The entries of the streams in the written order of their names. -/
def LogCaptureState.writtenStreams (state : LogCaptureState) : Dict :=
  [LogStreamName.console, .consoleStderr, .stderr, .stdout].map fun stream =>
    (stream.value, .obj (state.streams stream).written)

/-- The pending append of a document, `null` for none. -/
def LogCaptureState.writtenPending (state : LogCaptureState) : Json :=
  (state.pending.map fun pending => .obj pending.written).getD .null

/-- The document in the written order of its keys. -/
def LogCaptureState.writtenFields (state : LogCaptureState) : Dict :=
  [("max_bytes_per_job", .num state.maxBytesPerJob ""),
    ("max_bytes_per_stream", .num state.maxBytesPerStream "")] ++
  (state.pending.map fun pending => ("pending", Json.obj pending.written)).toList ++
  [("schema_version", .str logCaptureSchema), ("streams", .obj state.writtenStreams)]

theorem sortFields_streamDict (stream : StreamCaptureState) :
    Json.sortFields stream.toDict = stream.written := by
  simp +decide [StreamCaptureState.toDict, StreamCaptureState.written, Json.sortKeys,
    Json.sortFields, List.orderedInsert]

theorem sortFields_pendingDict (pending : PendingCaptureState) :
    Json.sortFields pending.toDict = pending.written := by
  simp +decide [PendingCaptureState.toDict, PendingCaptureState.written, Json.sortKeys,
    Json.sortFields, List.orderedInsert]

theorem sortFields_streams (state : LogCaptureState) :
    Json.sortFields (logStreamNames.map fun stream =>
      (stream.value, .obj (state.streams stream).toDict)) = state.writtenStreams := by
  simp +decide [logStreamNames, LogStreamName.value, LogCaptureState.writtenStreams,
    Json.sortKeys, Json.sortFields, List.orderedInsert, sortFields_streamDict]

/-- **The written document.** -/
theorem document_eq (state : LogCaptureState) : state.document = .obj state.writtenFields := by
  rcases hpend : state.pending with _ | pending
  · simp +decide [LogCaptureState.document, LogCaptureState.writtenFields, hpend,
      Json.sortKeys, Json.sortFields, List.orderedInsert, sortFields_streams]
  · simp +decide [LogCaptureState.document, LogCaptureState.writtenFields, hpend,
      Json.sortKeys, Json.sortFields, List.orderedInsert, sortFields_streams,
      sortFields_pendingDict]

theorem get_writtenFields (state : LogCaptureState) :
    Dict.get state.writtenFields "schema_version" = .str logCaptureSchema ∧
      Dict.get state.writtenFields "max_bytes_per_stream" = .num state.maxBytesPerStream "" ∧
      Dict.get state.writtenFields "max_bytes_per_job" = .num state.maxBytesPerJob "" ∧
      Dict.get state.writtenFields "streams" = .obj state.writtenStreams ∧
      Dict.get state.writtenFields "pending" = state.writtenPending := by
  rcases hpend : state.pending with _ | pending
  all_goals
    simp +decide [LogCaptureState.writtenFields, LogCaptureState.writtenPending, hpend,
      Dict.get, List.lookup]

theorem get_writtenStreams (state : LogCaptureState) (name : LogStreamName) :
    Dict.get state.writtenStreams name.value = .obj (state.streams name).written := by
  cases name <;>
    simp +decide [LogCaptureState.writtenStreams, LogStreamName.value, Dict.get, List.lookup]

theorem writtenStreams_names (state : LogCaptureState) :
    (Dict.onlyHas state.writtenStreams (logStreamNames.map LogStreamName.value) &&
      (logStreamNames.map LogStreamName.value).all (Dict.has state.writtenStreams)) = true := by
  simp +decide [LogCaptureState.writtenStreams, LogStreamName.value, logStreamNames,
    Dict.onlyHas, Dict.has, List.lookup]

@[simp]
theorem byteCount_num (n : Nat) (message : String) : byteCount (.num n "") message = .ok n := rfl

theorem captureCheck_of {b : Bool} (h : b = true) (message : String) : captureCheck b message = .ok () := by
  rw [captureCheck, if_pos h]

/-- **A balanced stream is read back.** -/
theorem validateStream_written {name : LogStreamName} (h : (state.streams name).Balanced quota) :
    validateStream state.writtenStreams quota name = .ok (state.streams name) := by
  obtain ⟨hobs, htrunc, hrecorded, hwithin⟩ := h
  have hev : (!((state.streams name).truncationEventRecorded &&
      !(state.streams name).truncated)) = true := by
    rcases hflag : (state.streams name).truncationEventRecorded with _ | _
    · rfl
    · rw [hrecorded hflag]
      rfl
  unfold validateStream
  rw [get_writtenStreams]
  simp only [StreamCaptureState.written, Dict.get, List.lookup, String.reduceBEq, Option.getD_some,
    byteCount_num, Json.bool?, spool_ok_bind]
  rw [captureCheck_of (decide_eq_true hobs), spool_ok_bind,
    captureCheck_of (decide_eq_true htrunc), spool_ok_bind, captureCheck_of hev, spool_ok_bind,
    captureCheck_of (decide_eq_true hwithin), spool_ok_bind]
  rfl

/-- **The loop reads back balanced streams.** -/
theorem validateStreams_written (h : ∀ name, (state.streams name).Balanced quota)
    (names : List LogStreamName) (streams : LogStreamName → StreamCaptureState) :
    validateStreams state.writtenStreams quota names streams =
      .ok fun name => if name ∈ names then state.streams name else streams name := by
  induction names generalizing streams with
  | nil => simp [validateStreams]
  | cons name names ih =>
    unfold validateStreams
    rw [validateStream_written (h name), spool_ok_bind, ih]
    congr 1
    funext other
    by_cases hother : other = name
    · subst hother
      simp
    · simp [hother]

theorem find_streamName (stream : LogStreamName) :
    logStreamNames.find? (fun name => Json.str stream.value = .str name.value) = some stream := by
  cases stream <;> decide

/-- **An admitted append is read back.** -/
theorem validatePending_written {pending : PendingCaptureState} (h : pending.Admitted state) :
    validatePending state pending.written = .ok pending := by
  obtain ⟨hbefore, hobs, hstr, hjob⟩ := h
  unfold validatePending
  simp only [PendingCaptureState.written, Dict.get, List.lookup, String.reduceBEq, Option.getD_some,
    find_streamName, byteCount_num, spool_ok_bind]
  rw [captureCheck_of (decide_eq_true hbefore), spool_ok_bind,
    captureCheck_of (decide_eq_true hobs), spool_ok_bind,
    captureCheck_of (decide_eq_true hstr), spool_ok_bind,
    captureCheck_of (decide_eq_true hjob), spool_ok_bind]
  rfl

/-- **A balanced state that is written is read back.** -/
theorem validateCaptureState_document {quotas : LogQuotas} (h : state.Balanced quotas)
    (hpend : ∀ pending, state.pending = some pending → pending.Admitted state) :
    validateCaptureState state.document = .ok state := by
  obtain ⟨hstreamQuota, hjobQuota, hstreams, hwithin⟩ := h
  obtain ⟨hsch, hperStream, hperJob, hraw, hget⟩ := get_writtenFields state
  have hpos := quotas.perStream_pos
  have hpos' := quotas.perJob_pos
  rw [← hstreamQuota] at hpos hstreams
  rw [← hjobQuota] at hpos' hwithin
  obtain ⟨maxBytesPerStream, maxBytesPerJob, streams, pending⟩ := state
  obtain ⟨n, rfl⟩ : ∃ n, maxBytesPerStream = n + 1 := ⟨maxBytesPerStream - 1, by
    change 0 < maxBytesPerStream at hpos; omega⟩
  obtain ⟨m, rfl⟩ : ∃ m, maxBytesPerJob = m + 1 := ⟨maxBytesPerJob - 1, by
    change 0 < maxBytesPerJob at hpos'; omega⟩
  have hloop := validateStreams_written hstreams logStreamNames fun _ => .existing 0
  simp only [mem_logStreamNames, if_true] at hloop
  have hint : ∀ k : Nat, (Json.num k "").int? = some (Int.ofNat k) := fun _ => rfl
  rw [document_eq]
  unfold validateCaptureState
  dsimp only
  rw [hsch, hperStream, hperJob, hraw, hint, hint, if_neg (not_not.2 rfl)]
  dsimp only
  have hsum : LogCaptureState.persistedJobBytes
      { maxBytesPerStream := n + 1, maxBytesPerJob := m + 1, streams := streams,
        pending := none } ≤ m + 1 := hwithin
  rw [captureCheck_of (writtenStreams_names _), spool_ok_bind, hloop, spool_ok_bind,
    captureCheck_of (decide_eq_true hsum), spool_ok_bind, hget]
  rcases pending with _ | pending
  · rfl
  · have hadm : pending.Admitted
        { maxBytesPerStream := n + 1, maxBytesPerJob := m + 1, streams, pending := none } := by
      obtain ⟨hbefore, hobs, hstr, hjob⟩ := hpend pending rfl
      exact ⟨hbefore, hobs, hstr, hjob⟩
    show (validatePending _ pending.written >>= _) = _
    rw [validatePending_written hadm, spool_ok_bind]
    rfl

end ClioQueue
