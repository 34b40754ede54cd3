/-
# The projection of a relay job as an MCP task

`RelayMcpTaskProjection` (`models_mcp_admission.py`) is what the relay keeps of one MCP task: the
call, the receipt of its job, the round of input it waits for, and its result.  A projection
is bounded (bytes, depth and number of values of its JSON), its input round asks only for keys that
were issued, and it has one outcome at most.
-/

import ClioQueue.Records
import ClioQueue.Wire.Merging
import ClioQueue.Wire.Text

namespace ClioQueue.McpTasks

open Wire

variable {φ : Type}

/-- `MAX_MCP_TASK_ARGUMENT_BYTES`. -/
def maxArgumentBytes : Nat := 512 * 1024

/-- `MAX_MCP_TASK_INPUT_ROUND_BYTES`. -/
def maxInputRoundBytes : Nat := 256 * 1024

/-- `MAX_MCP_TASK_PROJECTION_BYTES`. -/
def maxProjectionBytes : Nat := 768 * 1024

/-- `MAX_MCP_TASK_JSON_DEPTH`. -/
def maxJsonDepth : Nat := 64

/-- `MAX_MCP_TASK_JSON_NODES`. -/
def maxJsonNodes : Nat := 100000

/-- A `str` or `None`. -/
def optionalText : Option String → Value (Number φ)
  | none => .null
  | some s => .str s

/-- A `dict` or `None`. -/
def optionalDict : Option (Fields (Number φ)) → Value (Number φ)
  | none => .null
  | some d => .dict d

/-- `RelayMcpInputRound`. -/
structure InputRound (φ : Type) where
  leg : Nat
  outstanding : List (String × Fields (Number φ))
  answered : JsonDict (Number φ)
  requestState : Option String

/-- `input_round.model_dump(mode="json")`. -/
def InputRound.dump (round : InputRound φ) : Value (Number φ) :=
  .dict [("leg", .num (.int round.leg)),
      ("outstanding", .dict (round.outstanding.map fun entry => (entry.1, .dict entry.2))),
      ("answered", .dict round.answered.fields),
      ("request_state", optionalText round.requestState)]

/-- `RelayMcpTaskProjection`. -/
structure TaskProjection (φ : Type) where
  toolName : String
  profile : String
  arguments : Fields (Number φ)
  catalogRevision : Option String
  initialResult : Fields (Number φ)
  issuedInputKeys : List String
  inputRound : Option (InputRound φ)
  completedResult : Option (Fields (Number φ))
  protocolError : Option (Fields (Number φ))

/-- `projection.model_dump(mode="json")`. -/
def TaskProjection.dump (projection : TaskProjection φ) : Value (Number φ) :=
  .dict [("schema_version", .str "clio-relay.mcp-task-projection.v1"),
      ("tool_name", .str projection.toolName), ("profile", .str projection.profile),
      ("arguments", .dict projection.arguments),
      ("catalog_revision", optionalText projection.catalogRevision),
      ("initial_result", .dict projection.initialResult),
      ("issued_input_keys", .list (projection.issuedInputKeys.map .str)),
      ("input_round", (projection.inputRound.map InputRound.dump).getD .null),
      ("completed_result", optionalDict projection.completedResult),
      ("protocol_error", optionalDict projection.protocolError)]

/-- `RelayMcpTaskRecord`. -/
structure TaskRecord (φ : Type) where
  taskId : DurableRecordId
  jobId : DurableRecordId
  state : JobState
  createdAt : Int
  updatedAt : Int
  projection : TaskProjection φ

/-! ### Validation -/

/-- The keys that are asked for. -/
def InputRound.asked (round : InputRound φ) : List String := round.outstanding.map Prod.fst

/-- The keys that are answered. -/
def InputRound.given (round : InputRound φ) : List String := round.answered.fields.map Prod.fst

/-- There are keys that are asked for. -/
def TaskProjection.isWaiting (projection : TaskProjection φ) : Bool :=
  projection.inputRound.any fun round => !round.outstanding.isEmpty

/-- The keys of an input round were issued, and each is asked for or answered. -/
def InputRound.isIssued (issued : List String) (round : InputRound φ) : Bool :=
  (round.asked ++ round.given).all issued.contains && round.asked.all fun key => !round.given.contains key

/-- How many outcomes a projection has. -/
def TaskProjection.outcomeCount (projection : TaskProjection φ) : Nat :=
  projection.protocolError.isSome.toNat + projection.completedResult.isSome.toNat +
    projection.isWaiting.toNat

/-- `[0-9a-f]`, sixty-four times. -/
def isSha256 (s : String) : Bool :=
  s.length = 64 && s.toList.all fun c => ('0' ≤ c && c ≤ '9') || ('a' ≤ c && c ≤ 'f')

/-- The keys that were issued are distinct and bounded. -/
def areInputKeys (keys : List String) : Bool :=
  keys.length ≤ 1000 && keys.Nodup && keys.all fun key => 0 < key.length && key.length ≤ 512

section

variable [PyFloat φ]

/-- `_require_bounded_mcp_task_json` does not raise. -/
def isBoundedTaskJson (value : Value (Number φ)) (maximumBytes : Nat) : Bool :=
  value.nodes ≤ maxJsonNodes && value.depth ≤ maxJsonDepth && byteLength value.dumps ≤ maximumBytes

/-- `RelayMcpInputRound.model_validate` accepts it. -/
def InputRound.isValid (round : InputRound φ) : Bool :=
  1 ≤ round.leg && round.requestState.all (fun s => s.length ≤ 65536) &&
    isBoundedTaskJson round.dump maxInputRoundBytes

/-- `RelayMcpTaskProjection.model_validate` accepts it. -/
def TaskProjection.isValid (projection : TaskProjection φ) : Bool :=
  (1 ≤ projection.toolName.length && projection.toolName.length ≤ 512) &&
    (1 ≤ projection.profile.length && projection.profile.length ≤ 64) &&
    projection.catalogRevision.all isSha256 && areInputKeys projection.issuedInputKeys &&
    projection.inputRound.all InputRound.isValid &&
    projection.inputRound.all (InputRound.isIssued projection.issuedInputKeys) &&
    projection.outcomeCount ≤ 1 && isBoundedTaskJson (.dict projection.arguments) maxArgumentBytes &&
    isBoundedTaskJson projection.dump maxProjectionBytes

/-- `RelayMcpTaskRecord.model_validate` accepts it. -/
def TaskRecord.isValid (record : TaskRecord φ) : Bool :=
  record.projection.isValid && record.taskId = record.jobId

/-! ### What a valid projection is -/

variable {projection : TaskProjection φ}

/-- The model validates a projection exactly if its names, its input keys, its rounds, its one
outcome and both JSON bounds are in order. -/
theorem TaskProjection.isValid_iff : projection.isValid = true ↔
    (1 ≤ projection.toolName.length ∧ projection.toolName.length ≤ 512) ∧
    (1 ≤ projection.profile.length ∧ projection.profile.length ≤ 64) ∧
    projection.catalogRevision.all isSha256 = true ∧
    areInputKeys projection.issuedInputKeys = true ∧
    projection.inputRound.all InputRound.isValid = true ∧
    projection.inputRound.all (InputRound.isIssued projection.issuedInputKeys) = true ∧
    projection.outcomeCount ≤ 1 ∧
    isBoundedTaskJson (.dict projection.arguments) maxArgumentBytes = true ∧
    isBoundedTaskJson projection.dump maxProjectionBytes = true := by
  simp only [TaskProjection.isValid, Bool.and_eq_true, decide_eq_true_eq, and_assoc]

theorem TaskProjection.isValid.issued (h : projection.isValid = true) :
    ∀ round ∈ projection.inputRound, round.isIssued projection.issuedInputKeys = true :=
  (Option.all_eq_true _ _).1 (TaskProjection.isValid_iff.1 h).2.2.2.2.2.1

/-- A key that is asked for is not answered. -/
theorem TaskProjection.isValid.not_answered (h : projection.isValid = true)
    {round : InputRound φ} (hround : round ∈ projection.inputRound) {key : String}
    (hkey : key ∈ round.asked) : key ∉ round.given := by
  have hissued := TaskProjection.isValid.issued h round hround
  simp only [InputRound.isIssued, Bool.and_eq_true, List.all_eq_true, Bool.not_eq_true'] at hissued
  simpa using hissued.2 key hkey

theorem TaskProjection.isValid.not_waiting (h : projection.isValid = true)
    (hres : projection.completedResult.isSome = true) : projection.isWaiting = false := by
  have hcnt := (TaskProjection.isValid_iff.1 h).2.2.2.2.2.2.1
  rw [TaskProjection.outcomeCount, hres] at hcnt
  rcases hwait : projection.isWaiting with _ | _
  · rfl
  · rw [hwait] at hcnt
    simp only [Bool.toNat_true] at hcnt
    omega

end

end ClioQueue.McpTasks
