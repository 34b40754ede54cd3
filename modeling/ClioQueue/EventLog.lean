/-
# The event logs

The public half of `clio_relay/queue_events.py`: `append_event`, the timeline of a
task (`append_task_event`), and the reader of a job's log (`read_event_page`,
`drain_events`).  A page is read without a lock, one file after the other, so each
file is read from the store that its moment shows.
-/

import ClioQueue.Tasks

namespace ClioQueue

open Durable

section

variable [Platform] [Entropy]

/-- `append_event`. -/
def appendEvent (jobId : DurableRecordId) (eventType message : String) (payload : Dict) :
    Op RelayEvent :=
  appendEventUnlocked jobId eventType message payload

/-! ### The timeline of a task -/

/-- The first loop of `last_contiguous_sequence`: double until a record is missing.  It ends
since the upper bound grows, and is never above `2 ^ 63`. -/
def contiguousBounds (found : Nat → Bool) (low high : Nat) (hpos : 0 < high) :
    Option (Nat × Nat) :=
  if found high then
    if hguard : 2 ^ 63 < high * 2 then none
    else contiguousBounds found high (high * 2) (by omega)
  else some (low, high)
termination_by 2 ^ 63 - high

/-- The second loop of `last_contiguous_sequence`: halve until the bounds meet.  It ends since
the gap between them shrinks. -/
def lastBetween (found : Nat → Bool) (low high : Nat) : Nat :=
  if low + 1 < high then
    if found ((low + high) / 2) then lastBetween found ((low + high) / 2) high
    else lastBetween found low ((low + high) / 2)
  else low
termination_by high - low

/-- `last_contiguous_sequence`; `none` is its conflict. -/
def lastContiguousSequence (found : Nat → Bool) : Option Nat :=
  if found 1 then
    (contiguousBounds found 1 2 (by decide)).map fun bounds => lastBetween found bounds.1 bounds.2
  else some 0

/-- `_next_task_event_seq`. -/
def nextTaskEventSeq (taskId : DurableRecordId) : Op Nat := do
  let head ← read (.taskEventHead taskId)
  match head with
  | none => do
    let last ← Prog.look fun s =>
      lastContiguousSequence fun seq => (s.read (.taskEvent taskId seq)).isSome
    match last with
    | none => Prog.raise (.conflict "record sequence exceeds supported range")
    | some last => pure (last + 1)
  | some latest => do
    let free ← Prog.look fun s => (List.range' (latest + 1) defaultExactRecordLimit).find?
      fun seq => (s.read (.taskEvent taskId seq)).isNone
    match free with
    | none => Prog.raise (.conflict s!"task event head recovery exceeded bound: {taskId}")
    | some seq => pure seq

/-- `append_task_event`. -/
def appendTaskEvent (event : TaskTimelineEvent) : Op TaskTimelineEvent := do
  let task ← getTask event.taskId
  let seq ← nextTaskEventSeq event.taskId
  let saved : TaskTimelineEvent := { event with seq }
  putWithin (Platform.taskEventFits saved) (.taskEvent event.taskId seq) saved
  put (.taskEventHead event.taskId) seq
  let _event ← appendEvent task.jobId s!"task.timeline.{event.eventType}" event.summary
    [("task_id", .str event.taskId.value), ("task_event_seq", .num seq ""),
      ("event_type", .str event.eventType), ("label", .str event.label),
      ("status", .str event.status.value)]
  pure saved

end

/-! ### Reading a log -/

/-- The loop of `read_event_page`: at most `left` events from `candidate` on, and the sequence
after them.  `view` is the store that the read of a sequence sees. -/
def readEventsFrom (view : Nat → Store) (jobId : DurableRecordId) :
    Nat → Nat → Except RelayError (List RelayEvent × Nat)
  | 0, candidate => .ok ([], candidate)
  | left + 1, candidate =>
    match (view candidate).read (.event jobId candidate) with
    | none => .ok ([], candidate)
    | some event => do
      validateLegacyOutputEventAccess event
      if event.jobId = jobId ∧ event.seq = candidate then
        let rest ← readEventsFrom view jobId left (candidate + 1)
        .ok (event :: rest.1, rest.2)
      else .error (.conflict "event filename/content identity mismatch")

/-- `read_event_page`. -/
def readEventPage (view : Nat → Store) (jobId : DurableRecordId) (nextSeq limit : Int) :
    Except RelayError (List RelayEvent × Nat) :=
  if nextSeq < 1 then .error (.value "event sequence must be greater than or equal to 1")
  else if limit < 1 then .error (.value "event page limit must be greater than or equal to 1")
  else readEventsFrom view jobId limit.toNat nextSeq.toNat

/-- `Cursor`. -/
structure Cursor where
  jobId : DurableRecordId
  nextSeq : Nat
  deriving DecidableEq

/-- `drain_events`. -/
def drainEvents (view : Nat → Store) (cursor : Cursor) (limit : Int) :
    Except RelayError (List RelayEvent × Cursor) := do
  let page ← readEventPage view cursor.jobId cursor.nextSeq limit
  .ok (page.1, ⟨cursor.jobId, page.2⟩)

end ClioQueue
