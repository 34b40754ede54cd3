/-
# How the projection of a task moves

A projection moves forward (`TaskProjection.Continues`): the issued keys are added to, what was
answered stays answered with the same answer, the leg does not fall, and a result stays.  The three
writers of the runtime, who park the follow-up question, add answers, and store the result, each
move the projection that they read forward.
-/

import ClioQueue.McpTasks.TaskRuntime

namespace ClioQueue.McpTasks

open Durable Wire

variable {φ : Type}

/-- A later round: its leg is not lower, and the answers are still there. -/
structure InputRound.Continues (round round' : InputRound φ) : Prop where
  leg_le : round.leg ≤ round'.leg
  answers : ∀ key value, round.answered.fields.lookup key = some value →
    round'.answered.fields.lookup key = some value

/-- A later projection of the same call. -/
structure TaskProjection.Continues (p p' : TaskProjection φ) : Prop where
  issued : p.issuedInputKeys <+: p'.issuedInputKeys
  round : ∀ round, p.inputRound = some round →
    ∃ round', p'.inputRound = some round' ∧ round.Continues round'
  completedResult : ∀ result, p.completedResult = some result → p'.completedResult = some result
  protocolError : p'.protocolError = p.protocolError

/-- A round on the first leg, or one on the second leg that asks for nothing more. -/
def InputRound.OnLeg (round : InputRound φ) : Prop :=
  round.leg = 1 ∨ (round.leg = 2 ∧ round.outstanding = [])

/-- What holds of a stored projection. -/
structure TaskProjection.Sound [PyFloat φ] (p : TaskProjection φ) : Prop where
  valid : p.isValid = true
  leg : ∀ round, p.inputRound = some round → round.OnLeg

/-- The outcome of a task is there. -/
def TaskProjection.isSettled (p : TaskProjection φ) : Bool :=
  p.completedResult.isSome || p.protocolError.isSome

variable {p p' p'' : TaskProjection φ} {round : InputRound φ}

theorem InputRound.Continues.refl (round : InputRound φ) : round.Continues round :=
  ⟨le_rfl, fun _ _ h => h⟩

theorem TaskProjection.Continues.refl (p : TaskProjection φ) : p.Continues p where
  issued := List.prefix_rfl
  round := fun round h => ⟨round, h, .refl round⟩
  completedResult := fun _ h => h
  protocolError := rfl

theorem TaskProjection.Continues.trans (h : p.Continues p') (h' : p'.Continues p'') :
    p.Continues p'' where
  issued := h.issued.trans h'.issued
  round := by
    intro round hround
    obtain ⟨round', hround', hleg, hanswers⟩ := h.round round hround
    obtain ⟨round'', hround'', hleg', hanswers'⟩ := h'.round round' hround'
    exact ⟨round'', hround'', hleg.trans hleg', fun key value hv =>
      hanswers' key value (hanswers key value hv)⟩
  completedResult := fun result hres =>
    h'.completedResult result (h.completedResult result hres)
  protocolError := h'.protocolError.trans h.protocolError

theorem TaskProjection.Continues.isSettled (h : p.Continues p') (hsettled : p.isSettled = true) :
    p'.isSettled = true := by
  rw [TaskProjection.isSettled, Bool.or_eq_true] at hsettled ⊢
  rcases hsettled with hres | herr
  · obtain ⟨result, hres⟩ := Option.isSome_iff_exists.1 hres
    exact Or.inl (Option.isSome_iff_exists.2 ⟨result, h.completedResult result hres⟩)
  · exact Or.inr (h.protocolError ▸ herr)

section

variable [PyFloat φ]

/-! ### The three writes -/

theorem continues_parkedProjection {outstanding : List (String × Fields (Number φ))}
    {requestState : String} (hround : p.inputRound = none)
    (hval : (parkedProjection p outstanding requestState).isValid = true) :
    p.Continues (parkedProjection p outstanding requestState) ∧
      (parkedProjection p outstanding requestState).Sound := by
  refine ⟨⟨List.prefix_append _ _, ?_, fun _ h => h, rfl⟩, hval, ?_⟩
  · intro round h
    rw [hround] at h
    cases h
  · intro round h
    cases h
    exact Or.inl rfl

theorem continues_completed {final : Fields (Number φ)} (hsound : p.Sound)
    (hnone : p.completedResult = none)
    (hval : ({ p with completedResult := some final } : TaskProjection φ).isValid = true) :
    p.Continues { p with completedResult := some final } ∧
      ({ p with completedResult := some final } : TaskProjection φ).Sound := by
  refine ⟨⟨List.prefix_rfl, fun round h => ⟨round, h, .refl round⟩, ?_, rfl⟩, hval, hsound.leg⟩
  intro _ h
  rw [hnone] at h
  cases h

variable [McpTypes φ]
  {answered : InputRound φ} {matched : JsonDict (Number φ)} {record : TaskRecord φ}

theorem eq_of_resumeAgentInput {taskId : DurableRecordId} {resumed : InputRound φ}
    (h : resumeAgentInput taskId round = .ok resumed) :
    resumed = { round with leg := round.leg + 1, requestState := none } := by
  simp only [resumeAgentInput, bind_eq_ok] at h
  obtain ⟨_, -, outcome, -, h⟩ := h
  rcases outcome with ⟨_, requestState⟩ | _
  · cases h
  · simp only [bind_eq_ok, ensure_eq_ok, exists_const, pure_eq_ok] at h
    exact h.2.symm

/-- A round with answers is on the same leg, or on the second one with nothing left to ask. -/
theorem answeredRound_cases (h : answeredRound record round matched = .ok answered) :
    answered = round.answer matched ∨
      ((round.answer matched).outstanding = [] ∧ round.leg = 1 ∧
        answered = { round.answer matched with leg := 2, requestState := none }) := by
  simp only [answeredRound, bind_eq_ok, ensure_eq_ok, exists_const] at h
  obtain ⟨-, h⟩ := h
  split at h
  · rename_i hresumed
    simp only [Bool.and_eq_true, List.isEmpty_iff, decide_eq_true_eq] at hresumed
    obtain ⟨⟨⟨hempty, hleg⟩, -⟩, -⟩ := hresumed
    rw [eq_of_resumeAgentInput h]
    refine Or.inr ⟨hempty, hleg, ?_⟩
    have hsame : (round.answer matched).leg = 1 := hleg
    rw [hsame]
  · rw [pure_eq_ok] at h
    exact Or.inl h.symm

omit [McpTypes φ] in
/-- A round with answers to some of what it asks for. -/
theorem continues_answer (hsound : p.Sound) (hround : p.inputRound = some round)
    (hmatched : ∀ key ∈ matched.fields.map Prod.fst, key ∈ round.asked) :
    round.Continues (round.answer matched) := by
  refine ⟨le_rfl, fun key value hv => ?_⟩
  have hnone : matched.fields.lookup key = none := by
    by_contra hsome
    have hasked := hmatched key (mem_keys_iff_lookup.2 hsome)
    refine TaskProjection.isValid.not_answered hsound.valid hround hasked ?_
    exact mem_keys_iff_lookup.2 (by rw [hv]; exact Option.some_ne_none _)
  rw [InputRound.answer, JsonDict.lookup_merge, hnone, Option.none_or, hv]

/-- Answering an input round continues the projection: the answered keys were asked for and no other
answer changes. -/
theorem continues_answered (hsound : p.Sound) (hround : p.inputRound = some round)
    (hmatched : ∀ key ∈ matched.fields.map Prod.fst, key ∈ round.asked)
    (hasked : round.outstanding ≠ [])
    (hanswered : answeredRound record round matched = .ok answered)
    (hval : ({ p with inputRound := some answered } : TaskProjection φ).isValid = true) :
    p.Continues { p with inputRound := some answered } ∧
      ({ p with inputRound := some answered } : TaskProjection φ).Sound := by
  have hleg : round.leg = 1 := (hsound.leg round hround).resolve_right fun h => hasked h.2
  have hcont := continues_answer hsound hround hmatched
  have hcases := answeredRound_cases hanswered
  refine ⟨⟨List.prefix_rfl, ?_, fun _ h => h, rfl⟩, hval, ?_⟩
  · intro round' hround'
    cases hround.symm.trans hround'
    refine ⟨answered, rfl, ?_⟩
    rcases hcases with rfl | ⟨-, -, rfl⟩
    · exact hcont
    · refine ⟨?_, hcont.answers⟩
      show round.leg ≤ 2
      omega
  · intro round' hround'
    cases hround'
    rcases hcases with rfl | ⟨hempty, -, rfl⟩
    · exact Or.inl hleg
    · exact Or.inr ⟨rfl, hempty⟩

end

end ClioQueue.McpTasks
