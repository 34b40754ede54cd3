/-
# The stages of a recovery

Behind the 23 fields of an intent stand five stages: a dispatch is prepared, it is started, its
execution is being queried, the next query waits for its time, or the intent is resolved.  A stage
has only the data that belong to it, and `Stage.Sound` orders its times.  `Describes` says which
fields show a stage, and the reader accepts every intent that shows a sound one
(`isValid_of_describes`).
-/

import ClioQueue.Recovery.Writers
import ClioQueue.Wire.Merging

namespace ClioQueue.Recovery

open Wire Jarvis

variable {φ : Type}

/-- Where a recovery stands. -/
inductive Stage (φ : Type) where
  | prepared
  | started (startedAt : Int)
  | querying (startedAt : Int) (attempts : Nat) (attemptedAt : Int)
      (process : Option (Fields (Number φ)))
  | waiting (startedAt : Int) (attempts : Nat) (attemptedAt retryAt : Int) (error : String)
      (result : Option String)
  | resolved (startedAt : Int) (attempts : Nat) (attemptedAt : Option Int) (resolvedAt : Int)
      (resolution result : String) (scheduler : Option (String × String))

namespace Stage

/-- When the dispatch was started. -/
def startedAt : Stage φ → Option Int
  | prepared => none
  | started startedAt => some startedAt
  | querying startedAt _ _ _ => some startedAt
  | waiting startedAt _ _ _ _ _ => some startedAt
  | resolved startedAt _ _ _ _ _ _ => some startedAt

/-- How many queries were tried. -/
def attempts : Stage φ → Nat
  | prepared => 0
  | started _ => 0
  | querying _ attempts _ _ => attempts
  | waiting _ attempts _ _ _ _ => attempts
  | resolved _ attempts _ _ _ _ _ => attempts

/-- When the last query was tried. -/
def attemptedAt : Stage φ → Option Int
  | prepared => none
  | started _ => none
  | querying _ _ attemptedAt _ => some attemptedAt
  | waiting _ _ attemptedAt _ _ _ => some attemptedAt
  | resolved _ _ attemptedAt _ _ _ _ => attemptedAt

/-- When the next query is due, and why the last one failed. -/
def retry : Stage φ → Option (Int × String)
  | waiting _ _ _ retryAt error _ => some (retryAt, error)
  | _ => none

/-- The SHA-256 of the last result. -/
def result : Stage φ → Option String
  | waiting _ _ _ _ _ result => result
  | resolved _ _ _ _ _ result _ => some result
  | _ => none

/-- When and how it was resolved. -/
def resolution : Stage φ → Option (Int × String)
  | resolved _ _ _ resolvedAt resolution _ _ => some (resolvedAt, resolution)
  | _ => none

/-- The scheduler's name and job. -/
def scheduler : Stage φ → Option (String × String)
  | resolved _ _ _ _ _ _ scheduler => scheduler
  | _ => none

/-- The process of the query. -/
def process : Stage φ → Option (Fields (Number φ))
  | querying _ _ _ process => process
  | _ => none

/-- The times follow one another, and the texts are there. -/
def Sound [IsoFormat] (created : Int) : Stage φ → Prop
  | prepared => True
  | started startedAt => created ≤ startedAt
  | querying startedAt attempts attemptedAt process =>
    created ≤ startedAt ∧ startedAt ≤ attemptedAt ∧ 0 < attempts ∧
      ∀ record ∈ process, isQueryProcess record attemptedAt = true
  | waiting startedAt attempts attemptedAt retryAt error result =>
    created ≤ startedAt ∧ startedAt ≤ attemptedAt ∧ 0 < attempts ∧ attemptedAt ≤ retryAt ∧
      error ≠ "" ∧ ∀ digest ∈ result, isHex 64 digest.toList = true
  | resolved startedAt attempts attemptedAt resolvedAt resolution result scheduler =>
    created ≤ startedAt ∧ startedAt ≤ resolvedAt ∧
      (∀ time ∈ attemptedAt, startedAt ≤ time ∧ time ≤ resolvedAt) ∧
      (attempts = 0 ↔ attemptedAt = none) ∧ resolution ∈ resolutions ∧
      (resolution = "execution_query" → 0 < attempts) ∧ isHex 64 result.toList = true ∧
      ∀ identity ∈ scheduler, identity.1 ≠ "" ∧ identity.2 ≠ ""

/-- No time but that of the next query lies after `now`. -/
def Until (now : Int) (stage : Stage φ) : Prop :=
  (∀ time ∈ stage.startedAt, time ≤ now) ∧ ∀ time ∈ stage.attemptedAt, time ≤ now

theorem Until.mono {stage : Stage φ} {now later : Int} (h : stage.Until now) (hle : now ≤ later) :
    stage.Until later :=
  ⟨fun time ht => (h.1 time ht).trans hle, fun time ht => (h.2 time ht).trans hle⟩

end Stage

/-- A field shows a time, or none. -/
def ShowsTime [IsoFormat] (value : Value (Number φ)) : Option Int → Prop
  | none => value = .null
  | some time => timestampOf value = some time

/-- The fields of an intent show a stage. -/
structure Describes [IsoFormat] (view : IntentView φ) (stage : Stage φ) : Prop where
  state : view.state = .str (if stage.resolution.isSome then "resolved" else "pending")
  dispatchState : view.dispatchState =
    .str (if stage.startedAt.isSome then "started" else "prepared")
  dispatchStartedAt : ShowsTime view.dispatchStartedAt stage.startedAt
  attempts : view.attempts = .num (.int stage.attempts)
  lastAttemptAt : ShowsTime view.lastAttemptAt stage.attemptedAt
  nextRetryAt : ShowsTime view.nextRetryAt (stage.retry.map Prod.fst)
  lastError : view.lastError = optionalText (stage.retry.map Prod.snd)
  resultSha256 : view.resultSha256 = optionalText stage.result
  resolvedAt : ShowsTime view.resolvedAt (stage.resolution.map Prod.fst)
  resolution : view.resolution = optionalText (stage.resolution.map Prod.snd)
  schedulerProvider : view.schedulerProvider = optionalText (stage.scheduler.map Prod.fst)
  schedulerJobId : view.schedulerJobId = optionalText (stage.scheduler.map Prod.snd)
  queryProcess : view.queryProcess = optionalDict stage.process

/-! ### The reader accepts a sound stage -/

section Valid

variable [IsoFormat] {value : Value (Number φ)} {time : Option Int}

theorem ShowsTime.timestampOf (h : ShowsTime value time) : Recovery.timestampOf value = time := by
  rcases time with _ | t
  · rw [show value = .null from h]
    rfl
  · exact h

theorem ShowsTime.isTimestamp (h : ShowsTime value time) : isTimestamp value = time.isSome := by
  rw [Recovery.isTimestamp, h.timestampOf]

theorem ShowsTime.isNull (h : ShowsTime value time) : value.isNull = time.isNone := by
  rcases time with _ | t
  · rw [show value = .null from h]
    rfl
  · cases value with
    | null => cases h
    | bool => rfl
    | num => rfl
    | str => rfl
    | list => rfl
    | dict => rfl

end Valid

/-! Fields that may be `None`, one lemma for each kind. -/

theorem isNullOr_time [IsoFormat] {value : Value (Number φ)} {time : Option Int}
    (h : ShowsTime value time) : isNullOr isTimestamp value = true := by
  rw [isNullOr, h.isNull, h.isTimestamp]
  cases time <;> rfl

theorem isNull_optionalText (text : Option String) :
    (optionalText text : Value (Number φ)).isNull = text.isNone := by
  cases text <;> rfl

theorem isNullOr_text {text : Option String} (h : ∀ s ∈ text, s ≠ "") :
    isNullOr isText (optionalText text : Value (Number φ)) = true := by
  rcases text with _ | s
  · rfl
  · have hs := h s rfl
    simp [isNullOr, isText, optionalText, Value.isNull, Value.str?, hs]

theorem isNullOr_digest {digest : Option String} (h : ∀ s ∈ digest, isHex 64 s.toList = true) :
    isNullOr isDigest (optionalText digest : Value (Number φ)) = true := by
  rcases digest with _ | s
  · rfl
  · have hs := h s rfl
    simp [isNullOr, isDigest, optionalText, Value.isNull, Value.str?, hs]

theorem isNullOr_resolution {resolution : Option String} (h : ∀ s ∈ resolution, s ∈ resolutions) :
    isNullOr (fun value => value.str?.any resolutions.contains)
      (optionalText resolution : Value (Number φ)) = true := by
  rcases resolution with _ | s
  · rfl
  · have hs := h s rfl
    simp [isNullOr, optionalText, Value.isNull, Value.str?, hs]

theorem isNullOr_dict (entries : Option (Fields (Number φ))) :
    isNullOr isDict (optionalDict entries) = true := by
  cases entries <;> rfl

section Accepted

variable [IsoFormat] {view : IntentView φ} {stage : Stage φ} {created : Int}

/-! What a sound stage says of its texts. -/

theorem Stage.Sound.retry_ne_empty (h : stage.Sound created) :
    ∀ s ∈ stage.retry.map Prod.snd, s ≠ "" := by
  cases stage with
  | waiting =>
    obtain ⟨-, -, -, -, herr, -⟩ := h
    rintro s ⟨⟩
    exact herr
  | _ => rintro s ⟨⟩

theorem Stage.Sound.isHex_result (h : stage.Sound created) :
    ∀ s ∈ stage.result, isHex 64 s.toList = true := by
  cases stage with
  | waiting =>
    obtain ⟨-, -, -, -, -, hres⟩ := h
    exact hres
  | resolved =>
    obtain ⟨-, -, -, -, -, -, hres, -⟩ := h
    rintro s ⟨⟩
    exact hres
  | _ => rintro s ⟨⟩

theorem Stage.Sound.mem_resolutions (h : stage.Sound created) :
    ∀ s ∈ stage.resolution.map Prod.snd, s ∈ resolutions := by
  cases stage with
  | resolved =>
    obtain ⟨-, -, -, -, hmem, -⟩ := h
    rintro s ⟨⟩
    exact hmem
  | _ => rintro s ⟨⟩

theorem Stage.Sound.scheduler_ne_empty (h : stage.Sound created) :
    ∀ identity ∈ stage.scheduler, identity.1 ≠ "" ∧ identity.2 ≠ "" := by
  cases stage with
  | resolved =>
    obtain ⟨-, -, -, -, -, -, -, hsched⟩ := h
    exact hsched
  | _ => rintro s ⟨⟩

/-! ### The conditions, one after the other -/

section

variable (h : Describes view stage)

include h

theorem isTried_of_describes : view.isTried = decide (0 < stage.attempts) := by
  simp [IntentView.isTried, h.attempts, int?]

theorem isPending_of_describes : view.isPending = stage.resolution.isNone := by
  rw [IntentView.isPending, h.state]
  cases stage.resolution <;> simp [Value.isStr]

theorem isStarted_of_describes : view.isStarted = stage.startedAt.isSome := by
  rw [IntentView.isStarted, h.dispatchState, h.dispatchStartedAt.isTimestamp]
  cases stage.startedAt <;> simp [Value.isStr]

section

variable (hsound : stage.Sound created)

include hsound

/-- An intent that describes a stage has every field of the type that the reader asks for. -/
theorem isTyped_of_describes : view.isTyped = true := by
  have hst : (view.state.isStr "pending" || view.state.isStr "resolved") = true := by
    rw [h.state]
    cases stage.resolution <;> rfl
  have hdisp : (view.dispatchState.isStr "prepared" || view.dispatchState.isStr "started") =
      true := by
    rw [h.dispatchState]
    cases stage.startedAt <;> rfl
  have hprep : (!view.dispatchState.isStr "prepared" || view.dispatchStartedAt.isNull) = true := by
    rw [h.dispatchState, h.dispatchStartedAt.isNull]
    cases stage.startedAt <;> rfl
  have hstarted : (!view.dispatchState.isStr "started" || isTimestamp view.dispatchStartedAt) =
      true := by
    rw [h.dispatchState, h.dispatchStartedAt.isTimestamp]
    cases stage.startedAt <;> rfl
  have hatts : (int? view.attempts).any (0 ≤ ·) = true := by
    rw [h.attempts]
    exact decide_eq_true (Int.natCast_nonneg stage.attempts)
  have hprov : ∀ s ∈ stage.scheduler.map Prod.fst, s ≠ "" := fun s hs => by
    obtain ⟨identity, hident, rfl⟩ := Option.map_eq_some_iff.1 hs
    exact (hsound.scheduler_ne_empty identity hident).1
  have hjob : ∀ s ∈ stage.scheduler.map Prod.snd, s ≠ "" := fun s hs => by
    obtain ⟨identity, hident, rfl⟩ := Option.map_eq_some_iff.1 hs
    exact (hsound.scheduler_ne_empty identity hident).2
  rw [IntentView.isTyped, hst, hdisp, isNullOr_time h.dispatchStartedAt, hprep, hstarted,
    hatts, isNullOr_time h.lastAttemptAt, isNullOr_time h.nextRetryAt,
    isNullOr_time h.resolvedAt, h.lastError, isNullOr_text hsound.retry_ne_empty, h.resultSha256,
    isNullOr_digest hsound.isHex_result, h.resolution, isNullOr_resolution hsound.mem_resolutions,
    h.schedulerProvider, isNullOr_text hprov, h.schedulerJobId, isNullOr_text hjob,
    h.queryProcess, isNullOr_dict]
  rfl

theorem startAgrees_of_describes (hcreate : timestampOf view.createdAt = some created) :
    notBefore (timestampOf view.dispatchStartedAt) (timestampOf view.createdAt) = true := by
  rw [h.dispatchStartedAt.timestampOf, hcreate]
  cases stage with
  | prepared => rfl
  | started => exact decide_eq_true hsound
  | querying | waiting => exact decide_eq_true hsound.1
  | resolved =>
    exact decide_eq_true hsound.1

/-- The attempts and times of an intent that describes a stage are those of the stage. -/
theorem attemptAgrees_of_describes : view.attemptAgrees = true := by
  rw [IntentView.attemptAgrees, isTried_of_describes h, isStarted_of_describes h,
    h.lastAttemptAt.isTimestamp, h.lastAttemptAt.timestampOf, h.dispatchStartedAt.timestampOf]
  cases stage with
  | prepared => rfl
  | started => rfl
  | querying | waiting =>
    obtain ⟨-, hstart, hpos, -⟩ := hsound
    simp [Stage.attempts, Stage.startedAt, Stage.attemptedAt, notBefore, hstart, hpos]
  | resolved startedAt attempts attemptedAt =>
    obtain ⟨-, -, hatt, hzero, -⟩ := hsound
    rcases attemptedAt with _ | time
    · simp [Stage.attempts, Stage.attemptedAt, hzero.2 rfl]
    · have hpos : 0 < attempts := Nat.pos_of_ne_zero fun h => Option.some_ne_none _ (hzero.1 h)
      simp [Stage.attempts, Stage.startedAt, Stage.attemptedAt, notBefore, hpos, (hatt time rfl).1]

theorem retryAgrees_of_describes : view.retryAgrees = true := by
  rw [IntentView.retryAgrees, isTried_of_describes h, isPending_of_describes h,
    h.nextRetryAt.isTimestamp, h.nextRetryAt.timestampOf, h.lastAttemptAt.isTimestamp,
    h.lastAttemptAt.timestampOf, h.lastError]
  cases stage with
  | waiting =>
    obtain ⟨-, -, hpos, hretry, -⟩ := hsound
    simp [Stage.retry, Stage.resolution, Stage.attempts, Stage.attemptedAt, notBefore, hpos, hretry]
  | _ => rfl

theorem processAgrees_of_describes : view.processAgrees = true := by
  rw [IntentView.processAgrees, h.queryProcess, isPending_of_describes h, isTried_of_describes h,
    h.lastAttemptAt.timestampOf]
  cases stage with
  | querying startedAt attempts attemptedAt process =>
    obtain ⟨-, -, hpos, hproc⟩ := hsound
    rcases process with _ | record
    · rfl
    · simp [Stage.process, optionalDict, Stage.resolution, Stage.attempts, Stage.attemptedAt,
        hpos, hproc record rfl]
  | _ => rfl

/-- The resolution of an intent that describes a stage is one that the stage allows. -/
theorem resolutionAgrees_of_describes : view.resolutionAgrees = true := by
  rw [IntentView.resolutionAgrees, isPending_of_describes h, isTried_of_describes h,
    isStarted_of_describes h, h.resolvedAt.isNull, h.resolvedAt.isTimestamp,
    h.resolvedAt.timestampOf, h.dispatchStartedAt.timestampOf, h.lastAttemptAt.timestampOf,
    h.resultSha256, h.resolution, h.lastError, h.nextRetryAt.isNull, h.queryProcess,
    h.schedulerProvider, h.schedulerJobId]
  simp only [isNull_optionalText, Option.isNone_map, Option.isSome_map]
  cases stage with
  | prepared => rfl
  | started => rfl
  | querying | waiting =>
    obtain ⟨-, -, hpos, -⟩ := hsound
    simp [Stage.resolution, Stage.scheduler, Stage.attempts, hpos]
  | resolved startedAt attempts attemptedAt resolvedAt resolution =>
    obtain ⟨-, hstart, hatt, -, -, hquery, -⟩ := hsound
    have hafter : notBefore (some resolvedAt) attemptedAt = true := by
      rcases attemptedAt with _ | time
      · rfl
      · exact decide_eq_true (hatt time rfl).2
    have hfollows : notBefore (some resolvedAt) (some startedAt) = true := decide_eq_true hstart
    by_cases hresol : resolution = "execution_query"
    · simp [Stage.resolution, Stage.scheduler, Stage.attempts, Stage.startedAt,
        Stage.attemptedAt, Stage.result, Stage.retry, Stage.process, optionalDict, hafter,
        hfollows, hquery hresol]
    · simp [Stage.resolution, Stage.scheduler, Stage.attempts, Stage.startedAt,
        Stage.attemptedAt, Stage.result, Stage.retry, Stage.process, optionalDict, hafter,
        hfollows, optionalText, Value.isStr, hresol]

end

end

end Accepted

/-- **The reader accepts every intent that shows a sound stage.** -/
theorem isValid_of_describes [PyFloat φ] [Installation φ] [IsoFormat] [Sha256] {job : RoutedJob φ}
    {view : IntentView φ} {stage : Stage φ} {created : Int} (hbd : view.isBound job = true)
    (hcreate : timestampOf view.createdAt = some created) (h : Describes view stage)
    (hsound : stage.Sound created) : view.isValid job = true := by
  rw [IntentView.isValid, hbd, isTyped_of_describes h hsound,
    startAgrees_of_describes h hsound hcreate, attemptAgrees_of_describes h hsound,
    retryAgrees_of_describes h hsound, processAgrees_of_describes h hsound,
    resolutionAgrees_of_describes h hsound]
  rfl

end ClioQueue.Recovery
