/-
# The console stream

`clio_relay/console_stream.py` (`ConsoleLiveTailer`, `_flush_terminal_channel`),
`execution_root_from_record` of `clio_relay/jarvis_execution_artifacts.py` and
`read_external_log_range` of `clio_relay/spool.py`.

An application writes `stdout.log` and `stderr.log` under its execution root.  The tailer
copies them into the `console` and `console_stderr` streams of the spool while they grow, one
chunk for each poll; the terminal flush copies the rest.  Every chunk is decoded with replacement,
and `append_log` encodes the text again.  The memory of the tailer is state that a poll
returns; the spool is the store of `appendLog`.
-/

import Mathlib.Algebra.Order.Ring.Unbundled.Rat
import ClioQueue.SpoolCapture

namespace ClioQueue

open Durable

/-! ### Channels and logs -/

/-- The two channels of an application. -/
inductive ConsoleChannel where
  | stdout | stderr
  deriving DecidableEq, Repr

/-- `CONSOLE_STREAM` and `CONSOLE_STDERR_STREAM`. -/
def ConsoleChannel.stream : ConsoleChannel → LogStreamName
  | .stdout => .console
  | .stderr => .consoleStderr

/-- The stream that carries what the launched server prints on the channel. -/
def ConsoleChannel.wire : ConsoleChannel → LogStreamName
  | .stdout => .stdout
  | .stderr => .stderr

/-- `log_filename`. -/
def ConsoleChannel.logFilename : ConsoleChannel → String
  | .stdout => "stdout.log"
  | .stderr => "stderr.log"

/-- `unreadable_reason`. -/
def ConsoleChannel.unreadableReason : ConsoleChannel → String
  | .stdout => "stdout_log_unreadable"
  | .stderr => "stderr_log_unreadable"

/-- `mismatch_reason`. -/
def ConsoleChannel.mismatchReason : ConsoleChannel → String
  | .stdout => "console_live_tail_execution_mismatch"
  | .stderr => "console_stderr_live_tail_execution_mismatch"

/-- `CONSOLE_TAIL_CHUNK_BYTES`. -/
def consoleTailChunkBytes : Nat := 1048576

/-- What paths mean on the host: `Path.parent`, and the directory that `Path.resolve` leads to, none
for an `OSError`. -/
structure HostPaths where
  parent : String → String
  directory : String → Option String

/-- The logs of the applications: for a directory and a channel the bytes of the log. -/
abbrev ApplicationLogs : Type := String → ConsoleChannel → List UInt8

/-- What a range read returns: the text, the next offset and whether the log ends there. -/
structure LogRange where
  text : String
  nextOffset : Nat
  eof : Bool
  deriving DecidableEq

/-- The bytes from an offset on, at most a chunk. -/
def rangeBytes (log : List UInt8) (offset : Nat) : List UInt8 :=
  (log.drop offset).take consoleTailChunkBytes

/-- `read_external_log_range` with `limit=CONSOLE_TAIL_CHUNK_BYTES`, on a log that can be opened. -/
def readExternalLogRange (log : List UInt8) (offset : Nat) : LogRange :=
  let chunk := rangeBytes log offset
  { text := String.ofList (Utf8.decodeReplace chunk), nextOffset := offset + chunk.length
    eof := decide (offset + chunk.length ≥ log.length) }

/-- The log of a channel under an execution root, or `f"{source_path}: {exc}"`; `failure` is why
the read fails, if it does. -/
def openLog (paths : HostPaths) (logs : ApplicationLogs) (root : String)
    (channel : ConsoleChannel) (failure : Option String) : Except String (List UInt8) :=
  let sourcePath := root ++ "/" ++ channel.logFilename
  match failure, paths.directory root with
  | some message, _ => .error (sourcePath ++ ": " ++ message)
  | none, none => .error (sourcePath ++ ": cannot inspect owned log")
  | none, some directory => .ok (logs directory channel)

/-! ### The live tailer -/

/-- `_ChannelTailState`. -/
structure ChannelTailState where
  offset : Nat := 0
  truncated : Bool := false
  reportedReasons : List String := []
  lastPollMonotonic : Option ℚ := none
  deriving DecidableEq

/-- `ConsoleLiveTailer`. -/
structure ConsoleLiveTailer where
  minPollIntervalSeconds : ℚ
  executionRoot : Option String
  channels : ConsoleChannel → ChannelTailState

/-- `ConsoleTailStep`. -/
structure ConsoleTailStep where
  appended : Bool
  reason : Option String
  message : Option String
  deriving DecidableEq

/-- The step that does nothing. -/
def ConsoleTailStep.idle : ConsoleTailStep := ⟨false, none, none⟩

/-- The tailer and the spool it writes to. -/
structure TailWorld where
  spool : SpoolStore
  tailer : ConsoleLiveTailer

/-- Change the memory of a channel. -/
def TailWorld.withChannel (w : TailWorld) (channel : ConsoleChannel) (state : ChannelTailState) :
    TailWorld :=
  { w with tailer :=
    { w.tailer with channels := Function.update w.tailer.channels channel state } }

/-- `_reason_step`. -/
def reasonStep (channel : ConsoleChannel) (reason message : String) (w : TailWorld) :
    ConsoleTailStep × TailWorld :=
  let state := w.tailer.channels channel
  if reason ∈ state.reportedReasons then (.idle, w)
  else
    (⟨false, some reason, some message⟩,
      w.withChannel channel { state with reportedReasons := reason :: state.reportedReasons })

/-- `_tail_locked_execution` from the append on. -/
def appendChunk (quotas : LogQuotas) (channel : ConsoleChannel) (text : String) (w : TailWorld) :
    Except SpoolError ConsoleTailStep × TailWorld :=
  let outcome := (appendLog quotas channel.stream text).run w.spool ()
  let w := { w with spool := outcome.store }
  match outcome.result with
  | .error error => (.error error, w)
  | .ok result =>
    let w := if result.truncated then
        w.withChannel channel { w.tailer.channels channel with truncated := true }
      else w
    if result.truncationEventRequired then
      let marked := (markTruncationEventRecorded quotas channel.stream).run w.spool ()
      let w := { w with spool := marked.store }
      match marked.result with
      | .error error => (.error error, w)
      | .ok () => (.ok ⟨true, some "truncated", some (channel.stream.value ++
          " stream reached its " ++ toString result.persistedStreamBytes ++ "-byte quota")⟩, w)
    else (.ok ⟨true, none, none⟩, w)

/-- `_tail_locked_execution`, on what opening the log gives. -/
def tailLockedExecution (quotas : LogQuotas) (channel : ConsoleChannel)
    (log : Except String (List UInt8)) (w : TailWorld) :
    Except SpoolError ConsoleTailStep × TailWorld :=
  let state := w.tailer.channels channel
  match log with
  | .error message =>
    let step := reasonStep channel channel.unreadableReason message w
    (.ok step.1, step.2)
  | .ok bytes =>
    let range := readExternalLogRange bytes state.offset
    if range.text = "" then (.ok .idle, w)
    else appendChunk quotas channel range.text
      (w.withChannel channel { state with offset := range.nextOffset })

/-- A poll of `_poll_channel` does nothing: the channel is truncated, or polled a short time ago. -/
def throttled (tailer : ConsoleLiveTailer) (channel : ConsoleChannel) (now : ℚ) : Bool :=
  let state := tailer.channels channel
  state.truncated || match state.lastPollMonotonic with
    | none => false
    | some last => decide (now - last < tailer.minPollIntervalSeconds)

/-- What `resolve_jarvis_shared_dir` and `newest_execution_dir` answer: a reason and its text, or
the newest execution directory, if there is one. -/
abbrev Located : Type := Except (String × String) (Option String)

/-- `_poll_channel`.  `located` is used while no execution root is locked. -/
def pollChannel (quotas : LogQuotas) (paths : HostPaths) (logs : ApplicationLogs)
    (channel : ConsoleChannel) (now : ℚ) (located : Located) (failure : Option String)
    (w : TailWorld) : Except SpoolError ConsoleTailStep × TailWorld :=
  if throttled w.tailer channel now then (.ok .idle, w)
  else
    let w := w.withChannel channel
      { w.tailer.channels channel with lastPollMonotonic := some now }
    match w.tailer.executionRoot with
    | some root => tailLockedExecution quotas channel (openLog paths logs root channel failure) w
    | none =>
      match located with
      | .error (reason, message) =>
        let step := reasonStep channel reason message w
        (.ok step.1, step.2)
      | .ok none => (.ok .idle, w)
      | .ok (some root) =>
        let w := { w with tailer := { w.tailer with executionRoot := some root } }
        tailLockedExecution quotas channel (openLog paths logs root channel failure) w

/-! ### The terminal flush -/

/-- `execution_root_from_record`. -/
def executionRootFromRecord (paths : HostPaths) (record : Dict) : Option String :=
  match Dict.get record "metadata" with
  | .obj metadata =>
    (["pipeline_snapshot_path", "script_path"].findSome? fun key =>
      (Dict.get metadata key).nonemptyStr?).map paths.parent
  | _ => none

/-- The execution record of a terminal result. -/
def executionRecord (document : Dict) : Option Dict :=
  match Dict.get document "structured_result" with
  | .obj structured => (Dict.get structured "execution_record").obj?
  | _ => none

/-- `_same_directory`. -/
def sameDirectory (paths : HostPaths) (a b : String) : Bool :=
  match paths.directory a, paths.directory b with
  | some a, some b => decide (a = b)
  | _, _ => false

/-- `ConsoleFlushOutcome`. -/
structure ConsoleFlushOutcome where
  appendedBytes : Nat
  reason : Option String
  message : Option String
  deriving DecidableEq

/-- The loop of `_flush_terminal_channel`, on a log that no longer grows; none when it makes more
than `fuel` turns. -/
def flushLoop (quotas : LogQuotas) (channel : ConsoleChannel) (log : Except String (List UInt8)) :
    Nat → Nat → ConsoleFlushOutcome → SpoolStore →
      Option (Except SpoolError ConsoleFlushOutcome) × SpoolStore
  | 0, _, _, spool => (none, spool)
  | fuel + 1, offset, outcome, spool =>
    match log with
    | .error message =>
      let outcome := if outcome.appendedBytes = 0 ∧ outcome.reason = none then
          { outcome with reason := some channel.unreadableReason, message := some message }
        else outcome
      (some (.ok outcome), spool)
    | .ok bytes =>
      let range := readExternalLogRange bytes offset
      if range.text = "" then (some (.ok outcome), spool)
      else
        let appended := (appendLog quotas channel.stream range.text).run spool ()
        match appended.result with
        | .error error => (some (.error error), appended.store)
        | .ok result =>
          let outcome :=
            { outcome with appendedBytes := outcome.appendedBytes + result.acceptedBytes }
          if result.truncationEventRequired then
            let marked := (markTruncationEventRecorded quotas channel.stream).run appended.store ()
            match marked.result with
            | .error error => (some (.error error), marked.store)
            | .ok () =>
              -- a truncated stream takes no more: the loop ends
              let outcome := if outcome.reason = none then
                  { outcome with
                    reason := some "truncated"
                    message := some (channel.stream.value ++ " stream reached its " ++
                      toString result.persistedStreamBytes ++ "-byte quota") }
                else outcome
              if result.truncated || range.eof then (some (.ok outcome), marked.store)
              else flushLoop quotas channel log fuel range.nextOffset outcome marked.store
          else if result.truncated || range.eof then (some (.ok outcome), appended.store)
          else flushLoop quotas channel log fuel range.nextOffset outcome appended.store

/-- Where the loop of `_flush_terminal_channel` starts, and the reason that is known by then. -/
def flushStart (paths : HostPaths) (channel : ConsoleChannel) (root : String)
    (tailer : Option ConsoleLiveTailer) : Nat × ConsoleFlushOutcome :=
  match tailer with
  | none => (0, ⟨0, none, none⟩)
  | some tailer =>
    match tailer.executionRoot with
    | none => (0, ⟨0, none, none⟩)
    | some tailed =>
      if sameDirectory paths tailed root then
        ((tailer.channels channel).offset, ⟨0, none, none⟩)
      else
        (0, ⟨0, some channel.mismatchReason, some ("live tail followed " ++ tailed ++
          " but the terminal result named " ++ root ++ "; re-flushing " ++
          channel.stream.value ++ " from the start")⟩)

/-- `_flush_terminal_channel`. -/
def flushTerminalChannel (quotas : LogQuotas) (paths : HostPaths) (logs : ApplicationLogs)
    (channel : ConsoleChannel) (document : Dict) (tailer : Option ConsoleLiveTailer)
    (failure : Option String) (spool : SpoolStore) :
    Option (Except SpoolError ConsoleFlushOutcome) × SpoolStore :=
  match executionRecord document with
  | none => (some (.ok ⟨0, none, none⟩), spool)
  | some record =>
    match executionRootFromRecord paths record with
    | none =>
      (some (.ok ⟨0, some "execution_root_undeclared",
        some "terminal JARVIS result omitted an execution root"⟩), spool)
    | some root =>
      let log := openLog paths logs root channel failure
      let start := flushStart paths channel root tailer
      let size := match log with
        | .ok bytes => bytes.length
        | .error _ => 0
      flushLoop quotas channel log (size + 1) start.1 start.2 spool

end ClioQueue
