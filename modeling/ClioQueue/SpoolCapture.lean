/-
# The log capture of a job spool: operations

`JobSpool.initialize`, `append_log`, `mark_truncation_event_recorded`, `capture_summary`,
`_load_capture_state_unlocked`, `_recover_pending_capture_unlocked`,
`_write_capture_state_unlocked` and `_complete_utf8_prefix` of `clio_relay/spool.py`.

An append writes the state with the pending append, appends the accepted bytes to the log,
and writes the state without it.  The state file is replaced at once; the bytes reach the
log one by one, so that a process that stops can leave any number of them.
-/

import ClioQueue.Durable.Program
import ClioQueue.Durable.Utf8
import ClioQueue.Spool

namespace ClioQueue

open Durable

/-! ### The spool directory -/

/-- The capture state file: missing, not a JSON document, or the document it parses to. -/
inductive CaptureFile where
  | absent
  | unreadable (message : String)
  | document (raw : Json)

/-- The files of a spool that log capture uses. -/
structure SpoolStore where
  capture : CaptureFile
  logs : LogStreamName → Option (List UInt8)

namespace SpoolStore

/-- `_owned_log_size(path) if path.exists() else 0`. -/
def logSize (s : SpoolStore) (stream : LogStreamName) : Nat := ((s.logs stream).getD []).length

/-- Replace the state file. -/
def withCapture (s : SpoolStore) (state : LogCaptureState) : SpoolStore :=
  { s with capture := .document state.document }

/-- Write a log file anew. -/
def withLog (s : SpoolStore) (stream : LogStreamName) (bytes : List UInt8) : SpoolStore :=
  { s with logs := Function.update s.logs stream (some bytes) }

/-- One more byte of a log. -/
def withByte (s : SpoolStore) (stream : LogStreamName) (byte : UInt8) : SpoolStore :=
  s.withLog stream ((s.logs stream).getD [] ++ [byte])

@[simp]
theorem withCapture_logs (s : SpoolStore) (state : LogCaptureState) :
    (s.withCapture state).logs = s.logs := rfl

@[simp]
theorem withLog_logs_self (s : SpoolStore) (stream : LogStreamName) (bytes : List UInt8) :
    (s.withLog stream bytes).logs stream = some bytes := Function.update_self ..

theorem withLog_logs_of_ne (s : SpoolStore) {stream other : LogStreamName} (h : other ≠ stream)
    (bytes : List UInt8) : (s.withLog stream bytes).logs other = s.logs other :=
  Function.update_of_ne h ..

end SpoolStore

/-- A program over a spool. -/
abbrev SpoolOp (α : Type) : Type := Prog SpoolStore Unit SpoolError α

open Prog

/-- Raise a `RuntimeError` unless `b` holds. -/
def ensure (b : Bool) (message : String) : SpoolOp Unit := require b (.runtime message)

/-! ### The longest prefix of whole characters -/

/-- The loop of `_complete_utf8_prefix`: cut the bytes where strict decoding stops, until it does not.
At most `fuel` times. -/
def trimUndecodable : Nat → List UInt8 → List UInt8
  | 0, _ => []
  | _ + 1, [] => []
  | fuel + 1, b :: bytes =>
    let rest := (Utf8.decodePrefix (b :: bytes)).2
    if rest = [] then b :: bytes
    else trimUndecodable fuel ((b :: bytes).take ((b :: bytes).length - rest.length))

/-- `_complete_utf8_prefix`. -/
def completeUtf8Prefix (payload : List UInt8) (limit : Nat) : List UInt8 :=
  if payload.length ≤ limit then payload else trimUndecodable (limit + 1) (payload.take limit)

theorem trimUndecodable_encode (text : List Char) (fuel : Nat) :
    trimUndecodable (fuel + 1) (Utf8.encode text) = Utf8.encode text := by
  rcases hbytes : Utf8.encode text with _ | ⟨b, _⟩
  · rfl
  · rw [trimUndecodable, ← hbytes, Utf8.decodePrefix_encode]
    exact if_pos rfl

/-- **The loop cuts off a part of a character.** -/
theorem trimUndecodable_append (text : List Char) {part : List UInt8} (hpart : Utf8.head? part = none)
    (fuel : Nat) : trimUndecodable (fuel + 2) (Utf8.encode text ++ part) = Utf8.encode text := by
  rcases part with _ | ⟨p, part⟩
  · rw [List.append_nil, trimUndecodable_encode]
  · have hdecode := Utf8.decodePrefix_encode_append text hpart
    have htake : (Utf8.encode text ++ p :: part).take
        ((Utf8.encode text ++ p :: part).length - (p :: part).length) = Utf8.encode text := by
      rw [List.length_append, Nat.add_sub_cancel, List.take_left]
    rcases hbytes : Utf8.encode text ++ p :: part with _ | ⟨b, _⟩
    · rw [List.append_eq_nil_iff] at hbytes
      cases hbytes.2
    · rw [hbytes] at hdecode htake
      rw [trimUndecodable, hdecode]
      dsimp only
      rw [if_neg (List.cons_ne_nil _ _), htake, trimUndecodable_encode]

/-- **`_complete_utf8_prefix` keeps the longest prefix of whole characters.** -/
theorem completeUtf8Prefix_encode (text : List Char) (limit : Nat) :
    completeUtf8Prefix (Utf8.encode text) limit = Utf8.encode (Utf8.fit limit text) := by
  unfold completeUtf8Prefix
  split_ifs with h
  · rw [Utf8.fit_of_length_le h]
  · obtain ⟨part, htake, hpart⟩ := Utf8.take_encode limit text
    rw [htake]
    rcases limit with _ | limit
    · -- nothing fits, and nothing is left
      have hlen := congrArg List.length htake
      rw [List.take_zero, List.length_nil, List.length_append] at hlen
      have hnil : Utf8.encode (Utf8.fit 0 text) = [] := List.length_eq_zero_iff.1 (by omega)
      have hpartNil : part = [] := List.length_eq_zero_iff.1 (by omega)
      rw [hnil, hpartNil]
      rfl
    · exact trimUndecodable_append _ hpart limit

/-! ### Loading and recovering the state -/

/-- The account of an append that ended: its bytes are added and it is no longer pending. -/
def LogCaptureState.settle (state : LogCaptureState) (stream : LogStreamName)
    (observed persisted dropped : Nat) : LogCaptureState :=
  let item := state.streams stream
  { state with
    streams := Function.update state.streams stream
      { item with
        observedBytes := item.observedBytes + observed
        persistedBytes := item.persistedBytes + persisted
        droppedBytes := item.droppedBytes + dropped
        truncated := item.truncated || decide (dropped > 0) }
    pending := none }

/-- `_write_capture_state_unlocked`. -/
def writeCaptureState (state : LogCaptureState) : SpoolOp Unit :=
  durably (·.withCapture state)

/-- `_recover_pending_capture_unlocked`. -/
def recoverPendingCapture (state : LogCaptureState) : SpoolOp LogCaptureState :=
  match state.pending with
  | none => pure state
  | some pending => do
    ensure ((state.streams pending.stream).persistedBytes = pending.beforePersistedBytes)
      "invalid pending log capture baseline"
    let actualSize ← look (·.logSize pending.stream)
    let settled : LogCaptureState ←
      if actualSize = pending.beforePersistedBytes + pending.acceptedBytes then
        pure (state.settle pending.stream pending.observedBytes pending.acceptedBytes
          pending.droppedBytes)
      else if actualSize = pending.beforePersistedBytes then
        pure (state.settle pending.stream pending.observedBytes 0 pending.observedBytes)
      else raise (.runtime "pending log capture cannot reconcile")
    writeCaptureState settled
    pure settled

/-- The branch of `_load_capture_state_unlocked` without a state file. -/
def existingCaptureState (quotas : LogQuotas) : SpoolOp LogCaptureState := do
  each (fun name => do
      let size ← look (·.logSize name)
      ensure (size ≤ quotas.maxBytesPerStream)
        ("existing " ++ name.value ++ " log exceeds the configured stream quota"))
    logStreamNames
  let streams ← look fun s name => StreamCaptureState.existing (s.logSize name)
  let state : LogCaptureState :=
    { maxBytesPerStream := quotas.maxBytesPerStream, maxBytesPerJob := quotas.maxBytesPerJob,
      streams, pending := none }
  ensure (state.persistedJobBytes ≤ quotas.maxBytesPerJob)
    "existing logs exceed the configured whole-job quota"
  pure state

/-- `_load_capture_state_unlocked`. -/
def loadCaptureState (quotas : LogQuotas) : SpoolOp LogCaptureState := do
  match ← look (·.capture) with
  | .absent => existingCaptureState quotas
  | .unreadable message => raise (.runtime ("invalid log capture state: " ++ message))
  | .document raw => do
    let state ← ofExcept (validateCaptureState raw)
    ensure (state.maxBytesPerStream = quotas.maxBytesPerStream ∧
        state.maxBytesPerJob = quotas.maxBytesPerJob)
      "log capture quotas changed for an existing job spool; preserve the original limits"
    let state ← recoverPendingCapture state
    each (fun name => do
        let actualSize ← look (·.logSize name)
        ensure (actualSize = (state.streams name).persistedBytes)
          "log capture state does not match the log")
      logStreamNames
    pure state

/-! ### Appending -/

/-- `LogAppendResult`. -/
structure LogAppendResult where
  stream : LogStreamName
  acceptedText : String
  observedBytes : Nat
  acceptedBytes : Nat
  droppedBytes : Nat
  persistedStreamBytes : Nat
  persistedJobBytes : Nat
  truncated : Bool
  truncationEventRequired : Bool
  deriving DecidableEq

/-- An append that has been announced: the state before it, and the bytes it appends. -/
structure AppendPlan where
  state : LogCaptureState
  stream : LogStreamName
  observedBytes : Nat
  accepted : List UInt8

/-- `append_log` up to the write of the pending append. -/
def beginAppend (quotas : LogQuotas) (stream : LogStreamName) (text : String) :
    SpoolOp AppendPlan := do
  let encoded := Utf8.encode text.toList
  let state ← loadCaptureState quotas
  let streamAvailable := quotas.maxBytesPerStream - (state.streams stream).persistedBytes
  let jobAvailable := quotas.maxBytesPerJob - state.persistedJobBytes
  let accepted := completeUtf8Prefix encoded (min streamAvailable jobAvailable)
  writeCaptureState { state with
    pending := some
      { stream, beforePersistedBytes := (state.streams stream).persistedBytes
        observedBytes := encoded.length, acceptedBytes := accepted.length
        droppedBytes := encoded.length - accepted.length } }
  pure { state, stream, observedBytes := encoded.length, accepted }

/-- The write of the accepted bytes to the log, which must exist. -/
def writeAccepted (stream : LogStreamName) (accepted : List UInt8) : SpoolOp Unit :=
  match accepted with
  | [] => pure ()
  | _ :: _ => do
    let log ← look (·.logs stream)
    ensure log.isSome "cannot inspect owned log"
    each (fun byte => durably (·.withByte stream byte)) accepted

/-- `accepted_payload.decode("utf-8")`. -/
def decodeStrict (bytes : List UInt8) : Except SpoolError String :=
  if (Utf8.decodePrefix bytes).2 = [] then .ok (String.ofList (Utf8.decodePrefix bytes).1)
  else .error .unicodeDecode

/-- `append_log` from the accounting of the appended bytes on. -/
def finishAppend (plan : AppendPlan) : SpoolOp LogAppendResult := do
  let accepted := plan.accepted.length
  let dropped := plan.observedBytes - accepted
  let state := plan.state.settle plan.stream plan.observedBytes accepted dropped
  writeCaptureState state
  let acceptedText ← ofExcept (decodeStrict plan.accepted)
  let item := state.streams plan.stream
  pure
    { stream := plan.stream, acceptedText, observedBytes := plan.observedBytes
      acceptedBytes := accepted, droppedBytes := dropped
      persistedStreamBytes := item.persistedBytes
      persistedJobBytes := plan.state.persistedJobBytes + accepted
      truncated := item.truncated
      truncationEventRequired := item.truncated && !item.truncationEventRecorded }

/-- `append_log`. -/
def appendLog (quotas : LogQuotas) (stream : LogStreamName) (text : String) :
    SpoolOp LogAppendResult :=
  beginAppend quotas stream text >>= fun plan =>
    writeAccepted plan.stream plan.accepted >>= fun _ => finishAppend plan

/-! ### The other operations -/

/-- `stream_state["truncation_event_recorded"] = True`. -/
def LogCaptureState.withEventRecorded (state : LogCaptureState) (stream : LogStreamName) :
    LogCaptureState :=
  let item := state.streams stream
  { state with
    streams := Function.update state.streams stream { item with truncationEventRecorded := true } }

/-- `mark_truncation_event_recorded`. -/
def markTruncationEventRecorded (quotas : LogQuotas) (stream : LogStreamName) : SpoolOp Unit := do
  let state ← loadCaptureState quotas
  require (state.streams stream).truncated (.value (stream.value ++ " has not been truncated"))
  writeCaptureState (state.withEventRecorded stream)

/-- What `capture_summary` returns. -/
structure CaptureSummary where
  maxBytesPerStream : Nat
  maxBytesPerJob : Nat
  observedBytes : Nat
  persistedBytes : Nat
  droppedBytes : Nat
  truncated : Bool
  streams : LogStreamName → StreamCaptureState

/-- `capture_summary`. -/
def captureSummary (quotas : LogQuotas) : SpoolOp CaptureSummary := do
  let state ← loadCaptureState quotas
  pure
    { maxBytesPerStream := state.maxBytesPerStream, maxBytesPerJob := state.maxBytesPerJob
      observedBytes := sumStreams fun stream => (state.streams stream).observedBytes
      persistedBytes := state.persistedJobBytes
      droppedBytes := sumStreams fun stream => (state.streams stream).droppedBytes
      truncated := logStreamNames.any fun stream => (state.streams stream).truncated
      streams := state.streams }

/-- The step of `JobSpool.initialize` for one log: create it, empty, if it is missing. -/
def createMissingLog (name : LogStreamName) : SpoolOp Unit := do
  let log ← look (·.logs name)
  if log.isSome then pure () else durably (·.withLog name [])

/-- The part of `JobSpool.initialize` that log capture uses: the logs, then the state. -/
def initializeSpool (quotas : LogQuotas) : SpoolOp Unit := do
  each createMissingLog logStreamNames
  let state ← loadCaptureState quotas
  writeCaptureState state

end ClioQueue
