/-
# Scheduler cancellation claims

The claims of `clio_relay/queue_scheduler_cancel_claims.py`: a worker claims one
external cancellation attempt (or one confirmation poll) of a scheduler identity,
makes it, and records what it saw.  Attempts and confirmations are claimed and
recorded alike, on different fields of the disposition (`ClaimKind`).
-/

import Mathlib.Data.Rat.Floor
import ClioQueue.SchedulerCancelState

namespace ClioQueue

open Durable Durable.Prog

/-! ### Durations -/

/-- The microseconds of `timedelta(seconds=...)`, rounded half to even. -/
def timedelta (seconds : ℚ) : Int :=
  let whole := ⌊seconds * 1000000⌋
  let rest := seconds * 1000000 - whole
  if rest < 1 / 2 ∨ (rest = 1 / 2 ∧ whole % 2 = 0) then whole else whole + 1

/-- The sum of a `datetime` and a `timedelta`, within the range of `datetime`. -/
def addTimedelta (now : Time) (delta : Int) : Except RelayError Time :=
  if datetimeMin ≤ now + delta ∧ now + delta ≤ datetimeMax then .ok (now + delta)
  else .error (.overflow "date value out of range")

/-- `MIN_SCHEDULER_CANCEL_CLAIM_LEASE_SECONDS`. -/
def minSchedulerCancelClaimLeaseSeconds : ℚ := 1

/-- `MAX_SCHEDULER_CANCEL_CLAIM_LEASE_SECONDS`. -/
def maxSchedulerCancelClaimLeaseSeconds : ℚ := 300

/-- A duration of a second or more is positive. -/
theorem timedelta_pos {seconds : ℚ} (h : 1 ≤ seconds) : 0 < timedelta seconds := by
  have hfloor : (1 : Int) ≤ ⌊seconds * 1000000⌋ := by
    rw [Int.le_floor]
    push_cast
    linarith
  unfold timedelta
  simp only
  split_ifs <;> omega

/-- What the sum of a time and a duration is, when there is one. -/
theorem addTimedelta_ok {now time : Time} {delta : Int} (h : addTimedelta now delta = .ok time) :
    time = now + delta := by
  unfold addTimedelta at h
  split_ifs at h
  injection h with h
  exact h.symm

/-! ### The two kinds of claims -/

/-- What a claim is for. -/
inductive ClaimKind where
  | attempt
  | confirmation
  deriving DecidableEq, Repr

namespace ClaimKind

/-- The states in which there is something to claim. -/
def claimable : ClaimKind → SchedulerCancelDispositionState → Bool
  | .attempt, state => state.retryable
  | .confirmation, state => state = .cancelRequested

/-- `attempt_claim_id` or `confirmation_claim_id`. -/
def claimId : ClaimKind → SchedulerCancelDisposition → Option DurableRecordId
  | .attempt, d => d.attemptClaimId
  | .confirmation, d => d.confirmationClaimId

/-- `attempt_claim_expires_at` or `confirmation_claim_expires_at`. -/
def expiresAt : ClaimKind → SchedulerCancelDisposition → Option Time
  | .attempt, d => d.attemptClaimExpiresAt
  | .confirmation, d => d.confirmationClaimExpiresAt

/-- `attempts` or `confirmation_attempts`. -/
def count : ClaimKind → SchedulerCancelDisposition → Nat
  | .attempt, d => d.attempts
  | .confirmation, d => d.confirmationAttempts

/-- The tag of the claim ids. -/
def tag : ClaimKind → String
  | .attempt => "cancelclaim"
  | .confirmation => "confirmclaim"

/-- The refusal of a lease that is too short or too long. -/
def leaseMessage : ClaimKind → String
  | .attempt => "scheduler cancellation claim lease must be between 1 and 300 seconds"
  | .confirmation =>
    "scheduler cancellation confirmation claim lease must be between 1 and 300 seconds"

/-- The disposition with a claim. -/
def claimed (kind : ClaimKind) (d : SchedulerCancelDisposition) (provider : String)
    (claim : DurableRecordId) (claimedAt expiresAt : Time) : SchedulerCancelDisposition :=
  match kind with
  | .attempt =>
    { d with
      provider := some provider
      attemptClaimId := some claim
      attemptClaimedAt := some claimedAt
      attemptClaimExpiresAt := some expiresAt
      updatedAt := claimedAt }
  | .confirmation =>
    { d with
      provider := some provider
      confirmationClaimId := some claim
      confirmationClaimedAt := some claimedAt
      confirmationClaimExpiresAt := some expiresAt
      updatedAt := claimedAt }

end ClaimKind

/-- `SchedulerCancelAttemptClaim` and `SchedulerCancelConfirmationClaim`. -/
structure SchedulerCancelClaim where
  claimId : DurableRecordId
  schedulerJobId : String
  provider : String
  attempt : Nat
  claimedAt : Time
  expiresAt : Time
  deriving DecidableEq

/-- `SchedulerPhase`. -/
inductive SchedulerPhase where
  | submitted
  | pending
  | allocated
  | running
  | completed
  | failed
  | canceled
  | unknown
  deriving DecidableEq, Repr

/-- The value of the enumeration. -/
def SchedulerPhase.value : SchedulerPhase → String
  | .submitted => "submitted"
  | .pending => "pending"
  | .allocated => "allocated"
  | .running => "running"
  | .completed => "completed"
  | .failed => "failed"
  | .canceled => "canceled"
  | .unknown => "unknown"

section

variable [Platform] [Entropy]

/-! ### Claiming -/

/-- The pending record of a job, unless its completed record is there: then the
pending file is removed, and there is nothing to do. -/
def openSchedulerCancel (jobId : DurableRecordId) (cluster : String) :
    Op (Option SchedulerCancelPending) := do
  let found ← readSchedulerCancelDisposition cluster jobId
  match found with
  | some completed => do
    require (completed.jobId == jobId && completed.cluster == cluster && completed.complete)
      (.conflict "scheduler cancellation disposition identity mismatch")
    unlink (.schedulerCancelPending (stableRefToken [cluster]) jobId)
    pure none
  | none => requireSchedulerCancelPending jobId cluster >>= fun record => pure (some record)

/-- The disposition of a registered identity. -/
def registeredDisposition (record : SchedulerCancelPending) (schedulerJobId : String) :
    Op SchedulerCancelDisposition :=
  match record.find schedulerJobId with
  | none =>
    raise (.conflict s!"scheduler cancellation identity is not registered: {schedulerJobId}")
  | some current => pure current

/-- The provider of an identity does not change. -/
def requireProvider (current : SchedulerCancelDisposition) (provider : String) : Op Unit :=
  let known := current.provider.getD ""
  require (current.provider.all fun known => known == provider) (.conflict
    s!"scheduler cancellation provider changed for {current.schedulerJobId}: {known} != {provider}")

/-- Whether a disposition can be claimed now. -/
def ClaimKind.due (kind : ClaimKind) (current : SchedulerCancelDisposition) (now : Time) : Bool :=
  kind.claimable current.state && current.nextAttemptAt.all (fun due => decide (due ≤ now)) &&
    !claimLive (kind.claimId current) (kind.expiresAt current) now

/-- The claim of one due attempt or confirmation. -/
def claimSchedulerCancel (kind : ClaimKind) (jobId : DurableRecordId)
    (cluster schedulerJobId provider : String) (leaseSeconds : ℚ) (now : Option Time) :
    Op (Option SchedulerCancelClaim) := do
  require (provider ≠ "") (.value "scheduler cancellation provider must not be empty")
  require (decide (minSchedulerCancelClaimLeaseSeconds ≤ leaseSeconds) &&
    decide (leaseSeconds ≤ maxSchedulerCancelClaimLeaseSeconds)) (.value kind.leaseMessage)
  let observedAt ← observedNow now
  let opened ← openSchedulerCancel jobId cluster
  match opened with
  | none => pure none
  | some record =>
    if record.identityResolution ≠ .resolved then pure none
    else do
      let current ← registeredDisposition record schedulerJobId
      if kind.due current observedAt = false then pure none
      else do
        requireProvider current provider
        let claimId ← newId kind.tag
        let expiresAt ← ofExcept (addTimedelta observedAt (timedelta leaseSeconds))
        let _record ← persistSchedulerCancelRecord
          { record with
            dispositions := SchedulerCancelPending.replaced
              (kind.claimed current provider claimId observedAt expiresAt) record.dispositions
            updatedAt := observedAt }
        pure (some
          { claimId, schedulerJobId, provider, attempt := kind.count current + 1
            claimedAt := observedAt, expiresAt })

/-- `claim_scheduler_cancel_attempt`. -/
def claimSchedulerCancelAttempt (jobId : DurableRecordId)
    (cluster schedulerJobId provider : String) (leaseSeconds : ℚ) (now : Option Time) :
    Op (Option SchedulerCancelClaim) :=
  claimSchedulerCancel .attempt jobId cluster schedulerJobId provider leaseSeconds now

/-- `claim_scheduler_cancel_confirmation`. -/
def claimSchedulerCancelConfirmation (jobId : DurableRecordId)
    (cluster schedulerJobId provider : String) (leaseSeconds : ℚ) (now : Option Time) :
    Op (Option SchedulerCancelClaim) :=
  claimSchedulerCancel .confirmation jobId cluster schedulerJobId provider leaseSeconds now

/-! ### Recording -/

section

omit [Entropy]

/-- `bounded_error_detail(error)`, or a default for none and for an empty one. -/
def boundedErrorOr (error : Option String) (fallback : String) : String :=
  match error.map Platform.boundedErrorDetail with
  | none => fallback
  | some detail => if detail = "" then fallback else detail

/-- The state, the next attempt and the error after an attempt. -/
def attemptOutcome (attempts : Nat) (accepted : Bool) (error : Option String) (maxAttempts : Int)
    (retryDelaySeconds : ℚ) (observedAt : Time) :
    Except RelayError (SchedulerCancelDispositionState × Option Time × Option String) :=
  if accepted then
    -- the first confirmation is claimable at once
    .ok (.cancelRequested, some observedAt, none)
  else if maxAttempts ≤ attempts then
    .ok (.exhausted, none, some (boundedErrorOr error "scheduler cancellation failed"))
  else
    addTimedelta observedAt (timedelta retryDelaySeconds) >>= fun next =>
      .ok (.retryWait, some next, some (boundedErrorOr error "scheduler cancellation failed"))

/-- What an attempt makes of a disposition. -/
def attemptRecorded (current : SchedulerCancelDisposition) (provider : String) (accepted : Bool)
    (error : Option String) (maxAttempts : Int) (retryDelaySeconds : ℚ) (observedAt : Time) :
    Except RelayError SchedulerCancelDisposition :=
  attemptOutcome (current.attempts + 1) accepted error maxAttempts retryDelaySeconds
    observedAt >>= fun outcome =>
  SchedulerCancelDisposition.modelValidate
    { current with
      provider := some provider
      state := outcome.1
      attempts := current.attempts + 1
      nextAttemptAt := outcome.2.1
      lastError := outcome.2.2
      attemptClaimId := none
      attemptClaimedAt := none
      attemptClaimExpiresAt := none
      updatedAt := observedAt }

/-- The state, the next poll and the error after a confirmation poll. -/
def observationOutcome (confirmations : Nat) (phase : SchedulerPhase) (notFound : Bool)
    (error : Option String) (maxConfirmationAttempts : Int) (retryDelaySeconds : ℚ)
    (observedAt : Time) :
    Except RelayError (SchedulerCancelDispositionState × Option Time × Option String) :=
  if phase = .canceled then .ok (.canceled, none, none)
  else if phase = .completed ∨ phase = .failed then .ok (.terminal, none, none)
  else if notFound then .ok (.notFound, none, none)
  else if maxConfirmationAttempts ≤ confirmations then
    .ok (.exhausted, none, some (boundedErrorOr error
      s!"scheduler cancellation was not confirmed terminal: {phase.value}"))
  else
    addTimedelta observedAt (timedelta retryDelaySeconds) >>= fun next =>
      .ok (.cancelRequested, some next, error.map Platform.boundedErrorDetail)

/-- What a confirmation poll makes of a disposition. -/
def observationRecorded (current : SchedulerCancelDisposition) (phase : SchedulerPhase)
    (notFound : Bool) (error : Option String) (maxConfirmationAttempts : Int)
    (retryDelaySeconds : ℚ) (observedAt : Time) :
    Except RelayError SchedulerCancelDisposition :=
  observationOutcome (current.confirmationAttempts + 1) phase notFound error
    maxConfirmationAttempts retryDelaySeconds observedAt >>= fun outcome =>
  SchedulerCancelDisposition.modelValidate
    { current with
      state := outcome.1
      confirmationAttempts := current.confirmationAttempts + 1
      nextAttemptAt := outcome.2.1
      lastError := outcome.2.2
      confirmationClaimId := none
      confirmationClaimedAt := none
      confirmationClaimExpiresAt := none
      updatedAt := observedAt }

end

/-- The record of a claimed attempt or confirmation; a stale claimant is ignored. -/
def recordSchedulerCancel (kind : ClaimKind) (jobId : DurableRecordId)
    (cluster schedulerJobId provider : String) (claimId : DurableRecordId) (now : Option Time)
    (recorded : SchedulerCancelDisposition → Time →
      Except RelayError SchedulerCancelDisposition) : Op (Option SchedulerCancelPending) := do
  let observedAt ← observedNow now
  let opened ← openSchedulerCancel jobId cluster
  match opened with
  | none => pure none
  | some record => do
    let current ← registeredDisposition record schedulerJobId
    if kind.claimId current ≠ some claimId then pure none
    else do
      requireProvider current provider
      let item ← ofExcept (recorded current observedAt)
      let persisted ← persistSchedulerCancelRecord
        { record with
          dispositions := SchedulerCancelPending.replaced item record.dispositions
          updatedAt := observedAt }
      pure (some persisted)

/-- `record_scheduler_cancel_attempt`. -/
def recordSchedulerCancelAttempt (jobId : DurableRecordId)
    (cluster schedulerJobId provider : String) (claimId : DurableRecordId) (accepted : Bool)
    (error : Option String) (maxAttempts : Int) (retryDelaySeconds : ℚ) (now : Option Time) :
    Op (Option SchedulerCancelPending) :=
  recordSchedulerCancel .attempt jobId cluster schedulerJobId provider claimId now
    fun current observedAt =>
      attemptRecorded current provider accepted error maxAttempts retryDelaySeconds observedAt

/-- `record_scheduler_cancel_observation`. -/
def recordSchedulerCancelObservation (jobId : DurableRecordId)
    (cluster schedulerJobId provider : String) (claimId : DurableRecordId) (phase : SchedulerPhase)
    (notFound : Bool) (error : Option String) (maxConfirmationAttempts : Int)
    (retryDelaySeconds : ℚ) (now : Option Time) : Op (Option SchedulerCancelPending) :=
  recordSchedulerCancel .confirmation jobId cluster schedulerJobId provider claimId now
    fun current observedAt =>
      observationRecorded current phase notFound error maxConfirmationAttempts retryDelaySeconds
        observedAt

end

end ClioQueue
