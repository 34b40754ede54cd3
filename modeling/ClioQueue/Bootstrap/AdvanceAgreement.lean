/-
# One step of the two journal implementations

`advance_journal` and `advance` on a document that both accept, and the theorem about the two
implementations as a whole, `journals_agree_iff`.
-/

import ClioQueue.Bootstrap.JournalAgreement

namespace ClioQueue.Bootstrap

open Durable TransactionJournal

variable {δ : Type} [PydanticJson δ]
  {value : Dict} {generation time : String} {journal : TransactionJournal δ} {now : δ}

/-- A document and a journal with the same state, prepared generation, irreversible boundary,
phases, mode and owned paths. -/
structure SameContent (value : Dict) (journal : TransactionJournal δ) : Prop where
  fields : ∀ field ∈ ["state", "prepared_generation", "irreversible_boundary",
    "phase_identities", "mode"], value.get field = Dict.get journal.dumpFields field
  owned : coerceOwnedPaths (value.get "owned_paths") = .ok journal.ownedPaths

section Content

variable {value : Dict} {journal : TransactionJournal δ}

section

variable (h : SameContent value journal)

include h

theorem SameContent.state :
    value.get "state" = .str journal.state.value := h.fields _ (by decide)

theorem SameContent.prepared :
    value.get "prepared_generation" = optionalText journal.preparedGeneration :=
  h.fields _ (by decide)

theorem SameContent.boundary :
    value.get "irreversible_boundary" = .bool journal.irreversibleBoundary :=
  h.fields _ (by decide)

theorem SameContent.phases :
    value.get "phase_identities" =
      .obj (journal.phaseIdentities.map fun entry => (entry.1, .str entry.2)) :=
  h.fields _ (by decide)

theorem SameContent.mode :
    value.get "mode" = .str journal.mode.value := h.fields _ (by decide)

end

/-- **A document both accept** is read as the same journal. -/
theorem sameContent_of_reads {now : δ} (hval : Journal.Valid value)
    (h : Reads now value journal) : SameContent value journal := by
  obtain ⟨-, hall⟩ := (Bool.and_eq_true _ _).mp hval.fields
  have hhas : ∀ field ∈ journalFields, value.has field = true := List.all_eq_true.1 hall
  have hmode := h.mode
  have hst := h.state
  have hbdry := h.boundary
  have hown := h.owned
  have hph := h.phases
  rw [defaulted_of_has _ _ (hhas _ (by decide))] at hmode hst hbdry hown hph
  obtain ⟨_, hgetMode, hmodeText⟩ := readNamed_eq_some.1 hmode
  rw [TransactionMode.ofValue?_eq_some.1 hmodeText] at hgetMode
  obtain ⟨b, hb⟩ := hval.boundary
  obtain ⟨owned, hcoerced⟩ := hval.owned
  constructor
  · simp only [List.forall_mem_cons]
    refine ⟨readNamed_state_eq_some.1 hst, readOptional_str?.1 h.prepared, ?_,
      readTexts_eq_some.1 hph, hgetMode, List.forall_mem_nil _⟩
    rw [hb] at hbdry ⊢
    exact congrArg Json.bool (Option.some.inj hbdry)
  · obtain ⟨⟨hread, -⟩, -⟩ := (coerceOwnedPaths_iff_read (δ := δ)).1 hcoerced
    rw [hown] at hread
    rw [hcoerced, Option.some.inj hread]

theorem contains_terminalStates (state : TransactionState) :
    terminalStates.contains state.value = state.isTerminal := by
  cases state <;> decide

theorem contains_activating (state : TransactionState) :
    ["activating", "activated"].contains state.value =
      decide (state = .activated ∨ state = .activating) := by
  cases state <;> decide

theorem mode_eq_full (mode : TransactionMode) : Json.str mode.value = .str "full" ↔ mode = .full := by
  cases mode <;> decide

theorem SameContent.recoveryMode (h : SameContent value journal) :
    recoveryMode value = .ok journal.recoveryMode := by
  have hst : string value "state" = .ok journal.state.value := string_eq_ok.2 h.state
  have hbdry : Json.bool journal.irreversibleBoundary = .bool true ↔
      journal.irreversibleBoundary = true := by rw [Json.bool.injEq]
  rw [Bootstrap.recoveryMode, hst]
  show (if terminalStates.contains journal.state.value = true then pure "none"
    else if value.get "irreversible_boundary" = .bool true then pure "forward"
    else if value.get "mode" = .str "full" then pure "discard"
    else if ["activating", "activated"].contains journal.state.value = true then pure "rollback"
    else pure "discard") = Except.ok journal.recoveryMode
  rw [contains_terminalStates, contains_activating, h.boundary, h.mode, TransactionJournal.recoveryMode]
  simp only [hbdry, mode_eq_full, decide_eq_true_eq]
  split_ifs <;> rfl

end Content

/-! ### `advance_journal` -/

theorem lookup_transitions (state : TransactionState) :
    (transitions.lookup state.value).getD [] =
      state.transactionTransitions.map TransactionState.value := by
  cases state <;> rfl

theorem mem_transitions (state target : TransactionState) :
    ((transitions.lookup state.value).getD []).contains target.value = true ↔
      target ∈ state.transactionTransitions := by
  rw [lookup_transitions, List.contains_iff_mem, List.mem_map]
  constructor
  · rintro ⟨other, hmem, heq⟩
    rwa [TransactionState.value_injective heq] at hmem
  · exact fun h => ⟨target, h, rfl⟩

/-- The generation given for a step: one for the step into `prepared`, none for any other. -/
def generationFor (state : TransactionState) (generation : String) : Option String :=
  if state = .prepared then some generation else none

theorem value_eq_iff (state other : TransactionState) : state.value = other.value ↔ state = other :=
  ⟨TransactionState.value_injective, congrArg _⟩

theorem assignPrepared_eq_ok {assigned : Dict} {state : TransactionState} :
    assignPrepared value state.value (generationFor state generation) = .ok assigned ↔
      (state = .prepared → isSha256 generation = true) ∧
        assigned = if state = .prepared then value.set "prepared_generation" (.str generation)
          else value := by
  have hprep : decide (state.value = "prepared") = decide (state = .prepared) :=
    decide_eq_decide.2 (value_eq_iff state .prepared)
  unfold assignPrepared
  rw [hprep, generationFor]
  by_cases hst : state = .prepared
  · simp only [hst, decide_true, if_true, true_implies]
    split_ifs with hdig
    · simp [hdig, eq_comm]
    · simp [hdig]
  · simp only [hst, decide_false, if_false, false_implies, true_and, Except.ok.injEq]
    exact eq_comm

/-- What `advance_journal` writes into a journal. -/
def advanced (value : Dict) (state : TransactionState) (generation time : String) : Dict :=
  let assigned := if state = .prepared then value.set "prepared_generation" (.str generation)
    else value
  let moved := assigned.set "state" (.str state.value)
  let crossed := if state = .migrationStarted then moved.set "irreversible_boundary" (.bool true)
    else moved
  crossed.set "updated_at" (.str time)

/-- A journal is advanced exactly if its state leads to the target, a prepared one gets a digest for
its generation, and the advanced journal is valid. -/
theorem advanceValue_eq_ok {next : Dict} {state target : TransactionState}
    (hst : value.get "state" = .str state.value) :
    advanceValue value target.value (generationFor target generation) time = .ok next ↔
      target ∈ state.transactionTransitions ∧
        (target = .prepared → isSha256 generation = true) ∧
        Journal.Valid (advanced value target generation time) ∧
        next = advanced value target generation time := by
  have hstart : target.value = "migration_started" ↔ target = .migrationStarted :=
    value_eq_iff target .migrationStarted
  unfold advanceValue
  simp only [bind_eq_ok, ensure_eq_ok, string_eq_ok, exists_const, assignPrepared_eq_ok,
    validateJournal_ok_iff, hst, Json.str.injEq, exists_eq_left', mem_transitions, hstart]
  constructor
  · rintro ⟨hmem, _, ⟨hdig, rfl⟩, hval, ⟨⟩⟩
    exact ⟨hmem, hdig, hval, rfl⟩
  · rintro ⟨hmem, hdig, hval, rfl⟩
    exact ⟨hmem, _, ⟨hdig, rfl⟩, hval, rfl⟩

theorem hasExactly_congr {d d' : Dict} (h : d'.map Prod.fst = d.map Prod.fst)
    (names : List String) : hasExactly d' names = hasExactly d names := by
  have honly : d'.onlyHas names = d.onlyHas names :=
    Bool.eq_iff_iff.2 (by rw [Dict.onlyHas_iff, Dict.onlyHas_iff, h])
  have hhas : d'.has = d.has :=
    funext fun name => Bool.eq_iff_iff.2 (by rw [Dict.has_iff, Dict.has_iff, h])
  rw [hasExactly, hasExactly, honly, hhas]

theorem get_advanced (value : Dict) (state : TransactionState) (generation time field : String) :
    (advanced value state generation time).get field = if field = "updated_at" then .str time
      else if state = .migrationStarted ∧ field = "irreversible_boundary" then .bool true
      else if field = "state" then .str state.value
      else if state = .prepared ∧ field = "prepared_generation" then .str generation
      else value.get field := by
  unfold advanced
  rw [Dict.get_set]
  refine if_congr Iff.rfl rfl ?_
  by_cases hstart : state = .migrationStarted
  · subst hstart
    simp [Dict.get_set]
  · by_cases hprep : state = .prepared
    · subst hprep
      simp [Dict.get_set]
    · simp [hstart, hprep, Dict.get_set]

/-- An edit of fields that are there keeps the field set. -/
theorem hasExactly_advanced (h : hasExactly value journalFields = true) (state : TransactionState)
    (generation time : String) :
    hasExactly (advanced value state generation time) journalFields = true := by
  have hset : ∀ {d : Dict} {field : String}, hasExactly d journalFields = true →
      field ∈ journalFields → ∀ new, hasExactly (d.set field new) journalFields = true := by
    intro d field hd hfield new
    obtain ⟨-, hall⟩ := (Bool.and_eq_true _ _).mp hd
    rwa [hasExactly_congr (Dict.map_fst_set (List.all_eq_true.1 hall _ hfield) new)]
  unfold advanced
  refine hset ?_ (by decide) _
  split_ifs with hprep hstart hstart
  · exact hset (hset (hset h (by decide) _) (by decide) _) (by decide) _
  · exact hset (hset h (by decide) _) (by decide) _
  · exact hset (hset h (by decide) _) (by decide) _
  · exact hset h (by decide) _

/-- The prepared generation after the assignment for a step. -/
def preparedAfter (journal : TransactionJournal δ) (state : TransactionState)
    (generation : String) : Option String :=
  (generationFor state generation).or journal.preparedGeneration

/-- **When `advance_journal` accepts its own edit.** -/
theorem valid_advanced_iff (hval : Journal.Valid value) (h : SameContent value journal)
    {state : TransactionState} (hdig : state = .prepared → isSha256 generation = true) :
    Journal.Valid (advanced value state generation time) ↔
      (state.needsPrepared = true → (preparedAfter journal state generation).isSome = true) ∧
      (state.needsBoundary = true →
        journal.irreversibleBoundary = true ∨ state = .migrationStarted) := by
  have hst : (advanced value state generation time).get "state" = .str state.value := by
    simp [get_advanced]
  have hprep : (advanced value state generation time).get "prepared_generation" =
      optionalText (preparedAfter journal state generation) := by
    rw [get_advanced, preparedAfter, generationFor]
    by_cases hs : state = .prepared
    · simp [hs, optionalText]
    · simp [hs, h.prepared]
  have hbdry : (advanced value state generation time).get "irreversible_boundary" =
      .bool (journal.irreversibleBoundary || state = .migrationStarted) := by
    rw [get_advanced]
    by_cases hs : state = .migrationStarted
    · simp [hs]
    · simp [hs, h.boundary]
  have hother : ∀ field, field ∉ ["updated_at", "irreversible_boundary", "state",
      "prepared_generation"] → (advanced value state generation time).get field =
      value.get field := by
    intro field hfield
    simp only [List.mem_cons, List.not_mem_nil, or_false, not_or] at hfield
    simp [get_advanced, hfield]
  constructor
  · intro hnext
    constructor
    · intro hneeds
      have hne := hnext.needsPrepared _ ((mem_preparedStates state).2 hneeds) hst
      rw [hprep] at hne
      rcases hafter : preparedAfter journal state generation with _ | text
      · exact absurd (by rw [hafter]; rfl) hne
      · rfl
    · intro hneeds
      have hcross := hnext.needsBoundary _ ((mem_boundaryStates state).2 hneeds) hst
      rw [hbdry, Json.bool.injEq, Bool.or_eq_true, decide_eq_true_eq] at hcross
      exact hcross
  · rintro ⟨hneedsPrepared, hneedsBoundary⟩
    have hname : ∀ {text}, (advanced value state generation time).get "state" = .str text →
        text = state.value := by
      intro text htext
      rw [hst] at htext
      exact (Json.str.inj htext).symm
    refine ⟨hasExactly_advanced hval.fields _ _ _, ?_, ?_, ?_, ?_,
      ⟨_, mem_knownStates.2 ⟨state, rfl⟩, hst⟩, ?_, ?_, ?_, ⟨_, hbdry⟩, ?_, ?_, ?_, ?_, ?_⟩
    · rw [hother _ (by decide)]
      exact hval.schema
    · rw [hother _ (by decide)]
      exact hval.invocation
    · rw [hother _ (by decide)]
      exact hval.fingerprint
    · rw [hother _ (by decide)]
      exact hval.mode
    · rw [hother _ (by decide)]
      exact hval.recovered
    · rw [hother _ (by decide)]
      exact hval.active
    · rw [hother _ (by decide)]
      exact hval.enabled
    · have hold := hval.prepared
      rw [h.prepared] at hold
      rw [hprep, preparedAfter, generationFor]
      by_cases hs : state = .prepared
      · simpa [hs, optionalText, isOptionalText] using hdig hs
      · simpa [hs] using hold
    · intro text hmem htext hnull
      obtain rfl := hname htext
      have hsome := hneedsPrepared ((mem_preparedStates state).1 hmem)
      rw [hprep] at hnull
      rcases hafter : preparedAfter journal state generation with _ | text
      · rw [hafter] at hsome
        cases hsome
      · rw [hafter] at hnull
        cases hnull
    · intro text hmem htext
      obtain rfl := hname htext
      have hcross := hneedsBoundary ((mem_boundaryStates state).1 hmem)
      rw [hbdry, Json.bool.injEq, Bool.or_eq_true, decide_eq_true_eq]
      exact hcross
    · rw [hother _ (by decide)]
      exact hval.owned
    · rw [hother _ (by decide)]
      exact hval.phases

/-! ### Both implementations -/

/-- One step by both implementations: both refuse, or both write the same content, and their
recovery modes are the same before and after. -/
def StepAgrees (value : Dict) (journal : TransactionJournal δ) (state : TransactionState)
    (generation time : String) (now : δ) : Prop :=
  recoveryMode value = .ok journal.recoveryMode ∧
    match advanceValue value state.value (generationFor state generation) time,
      (journal.assign (generationFor state generation)).advance state now with
    | .ok next, .ok other => SameContent next other ∧ recoveryMode next = .ok other.recoveryMode
    | .error _, .error _ => True
    | _, _ => False

/-- What the two implementations treat differently in an allowed step: the form of a prepared
generation, the needs of the state that is entered, and the boundary at `activating`. -/
def StepMeets (journal : TransactionJournal δ) (state : TransactionState) (generation : String) :
    Prop :=
  state ∈ journal.state.transactionTransitions → (state = .prepared → isSha256 generation = true) ∧
      (state.needsPrepared = true → (preparedAfter journal state generation).isSome = true) ∧
      (state.needsBoundary = true →
        journal.irreversibleBoundary = true ∨ state = .migrationStarted) ∧
      (state = .activating → journal.mode = .full ∨ journal.irreversibleBoundary = true)

/-- The journal `advance` leaves. -/
def moved (journal : TransactionJournal δ) (state : TransactionState) (generation : String)
    (now : δ) : TransactionJournal δ :=
  { journal with
    preparedGeneration := preparedAfter journal state generation
    state
    irreversibleBoundary := journal.irreversibleBoundary || state = .migrationStarted ||
      (state = .activating && journal.mode ≠ .full)
    updatedAt := now }

omit [PydanticJson δ] in
theorem advance_eq_ok {other : TransactionJournal δ} {state : TransactionState} :
    (journal.assign (generationFor state generation)).advance state now = .ok other ↔
      state ∈ journal.state.transactionTransitions ∧ other = moved journal state generation now := by
  unfold TransactionJournal.advance
  constructor
  · intro h
    split_ifs at h with hmem
    cases h
    exact ⟨hmem, rfl⟩
  · rintro ⟨hmem, rfl⟩
    exact if_pos hmem

/-- **The two edits have the same content** exactly when the step is not one into `activating`
that only `advance` takes across the boundary. -/
theorem sameContent_advanced (h : SameContent value journal) (state : TransactionState)
    (generation time : String) (now : δ) :
    SameContent (advanced value state generation time) (moved journal state generation now) ↔
      (state = .activating → journal.mode = .full ∨ journal.irreversibleBoundary = true) := by
  have hbdry : (advanced value state generation time).get "irreversible_boundary" =
      .bool (journal.irreversibleBoundary || state = .migrationStarted) := by
    rw [get_advanced]
    by_cases hs : state = .migrationStarted
    · simp [hs]
    · simp [hs, h.boundary]
  constructor
  · rintro hsame rfl
    have hafter := hsame.boundary
    rw [hbdry, Json.bool.injEq] at hafter
    by_cases hfull : journal.mode = .full
    · exact .inl hfull
    · refine .inr ?_
      simpa [moved, hfull] using hafter
  · intro hactivating
    constructor
    · simp only [List.forall_mem_cons]
      refine ⟨?_, ?_, ?_, ?_, ?_, List.forall_mem_nil _⟩
      · show _ = Json.str state.value
        simp [get_advanced]
      · rw [get_advanced]
        show _ = optionalText (preparedAfter journal state generation)
        rw [preparedAfter, generationFor]
        by_cases hs : state = .prepared
        · simp [hs, optionalText]
        · simp [hs, h.prepared]
      · rw [hbdry]
        show _ = Json.bool (journal.irreversibleBoundary || decide (state = .migrationStarted) ||
          (decide (state = .activating) && decide (journal.mode ≠ .full)))
        rw [Json.bool.injEq]
        by_cases hs : state = .activating
        · rcases hactivating hs with hfull | hcross
          · simp [hs, hfull]
          · simp [hcross]
        · simp [hs]
      · show _ = Json.obj (journal.phaseIdentities.map fun entry => (entry.1, .str entry.2))
        simp [get_advanced, h.phases]
      · show _ = Json.str journal.mode.value
        simp [get_advanced, h.mode]
    · have hown : (advanced value state generation time).get "owned_paths" =
          value.get "owned_paths" := by
        simp [get_advanced]
      rw [hown]
      exact h.owned

/-- **One step agrees** exactly when the step meets what the two treat differently. -/
theorem stepAgrees_iff {state : TransactionState} (hval : Journal.Valid value)
    (h : SameContent value journal) :
    StepAgrees value journal state generation time now ↔ StepMeets journal state generation := by
  unfold StepAgrees StepMeets
  rw [iff_true_intro h.recoveryMode, true_and]
  by_cases hmem : state ∈ journal.state.transactionTransitions
  · have hadv : (journal.assign (generationFor state generation)).advance state now =
        .ok (moved journal state generation now) := advance_eq_ok.2 ⟨hmem, rfl⟩
    rw [hadv]
    rcases hv : advanceValue value state.value (generationFor state generation) time with
      error | next
    · refine iff_of_false id fun hmeets => ?_
      obtain ⟨hdig, hprep, hbdry, -⟩ := hmeets hmem
      have hnext : Journal.Valid (advanced value state generation time) :=
        (valid_advanced_iff hval h hdig).2 ⟨hprep, hbdry⟩
      have hok := (advanceValue_eq_ok h.state).2 ⟨hmem, hdig, hnext, rfl⟩
      rw [hv] at hok
      cases hok
    · obtain ⟨-, hdig, hnext, rfl⟩ := (advanceValue_eq_ok h.state).1 hv
      obtain ⟨hprep, hbdry⟩ := (valid_advanced_iff hval h hdig).1 hnext
      constructor
      · rintro ⟨hsame, -⟩ -
        exact ⟨hdig, hprep, hbdry, (sameContent_advanced h _ _ _ _).1 hsame⟩
      · intro hmeets
        have hsame := (sameContent_advanced h state generation time now).2 (hmeets hmem).2.2.2
        exact ⟨hsame, hsame.recoveryMode⟩
  · rcases hadv : (journal.assign (generationFor state generation)).advance state now with
      error | other
    · rcases hv : advanceValue value state.value (generationFor state generation) time with
        error' | next
      · exact iff_of_true trivial fun hin => absurd hin hmem
      · exact absurd ((advanceValue_eq_ok h.state).1 hv).1 hmem
    · exact absurd (advance_eq_ok.1 hadv).1 hmem

/-- The two implementations accept the same document. -/
def LoadsAlike (now : δ) (document : Json) : Prop :=
  (∃ value, loadValue document = .ok value) ↔
    ∃ journal, modelValidate now document = some journal

theorem loadValue_eq_ok {document : Json} :
    loadValue document = .ok value ↔ document = .obj value ∧ Journal.Valid value := by
  cases document with
  | obj =>
    rw [loadValue]
    simp only [bind_eq_ok, validateJournal_ok_iff, exists_const]
    constructor
    · rintro ⟨hval, ⟨⟩⟩
      exact ⟨rfl, hval⟩
    · rintro ⟨⟨⟩, hval⟩
      exact ⟨hval, rfl⟩
  | _ => simp [loadValue]

/-- **A document is accepted alike** exactly when it breaks a shared rule, or meets both sets of
one-sided rules, or breaks both. -/
theorem loadsAlike_iff (now : δ) (document : Json) :
    LoadsAlike now document ↔ ∀ value, document = .obj value → SharedRules δ value →
      (StandardRules value ↔ ActivationRules δ value) := by
  unfold LoadsAlike
  cases document with
  | obj fields =>
    have hload : (∃ value, loadValue (.obj fields) = .ok value) ↔ Journal.Valid fields := by
      simp only [loadValue_eq_ok, Json.obj.injEq]
      exact ⟨by rintro ⟨_, rfl, h⟩; exact h, fun h => ⟨_, rfl, h⟩⟩
    rw [hload, valid_iff_rules (δ := δ), modelValidate_iff_rules]
    simp only [Json.obj.injEq, forall_eq']
    tauto
  | _ =>
    refine iff_of_true (iff_of_false ?_ ?_) ?_
    · rintro ⟨_, ⟨⟩⟩
    · rintro ⟨_, ⟨⟩⟩
    · rintro _ ⟨⟩

/-- **The two implementations agree on a document and a step** exactly when they have the same
reason to accept the document and the step meets what they treat differently. -/
theorem journals_agree_iff (document : Json) (state : TransactionState) (generation time : String)
    (now : δ) :
    (LoadsAlike now document ∧
      ∀ value journal, loadValue document = .ok value → modelValidate now document = some journal →
        StepAgrees value journal state generation time now) ↔
    (∀ value, document = .obj value → SharedRules δ value →
        (StandardRules value ↔ ActivationRules δ value)) ∧
      ∀ value journal, loadValue document = .ok value →
        modelValidate now document = some journal → StepMeets journal state generation := by
  rw [loadsAlike_iff]
  refine and_congr_right fun _ => ?_
  refine forall_congr' fun value => forall_congr' fun journal =>
    forall_congr' fun hload => forall_congr' fun hread => ?_
  obtain ⟨rfl, hval⟩ := loadValue_eq_ok.1 hload
  exact stepAgrees_iff hval (sameContent_of_reads hval (modelValidate_eq_some.1 hread))

/-- A journal that was fenced without having been prepared. -/
def sampleFenced : TransactionJournal IsoTime := { sampleTransaction with state := .fenced }

theorem sampleFenced_valid : Journal.Valid sampleFenced.dumpFields := by
  have hok : validateJournal sampleFenced.dumpFields = .ok () := by decide +kernel
  exact validateJournal_ok_iff.1 hok

/-- From `fenced` to `activating`: both accept the journal, `advance_journal` refuses the step
for want of a prepared generation, and `advance` followed by `persist` takes it. -/
theorem fenced_step_disagrees :
    ¬ (LoadsAlike (⟨"2026-01-01T00:00:00Z"⟩ : IsoTime) (.obj sampleFenced.dumpFields) ∧
      ∀ value journal, loadValue (.obj sampleFenced.dumpFields) = .ok value →
        modelValidate (⟨"2026-01-01T00:00:00Z"⟩ : IsoTime) (.obj sampleFenced.dumpFields) =
          some journal →
        StepAgrees value journal .activating sampleDigest "2026-01-01T00:00:01Z"
          ⟨"2026-01-01T00:00:01Z"⟩) := by
  rintro ⟨-, hstep⟩
  have hread : ∃ journal, modelValidate (⟨"2026-01-01T00:00:00Z"⟩ : IsoTime)
      (.obj sampleFenced.dumpFields) = some journal := by
    rw [← Option.isSome_iff_exists]
    decide +kernel
  obtain ⟨journal, hj⟩ := hread
  have hsame := sameContent_of_reads sampleFenced_valid (modelValidate_eq_some.1 hj)
  have hagrees := hstep _ journal (loadValue_eq_ok.2 ⟨rfl, sampleFenced_valid⟩) hj
  have hst : journal.state = .fenced :=
    TransactionState.value_injective (Json.str.inj (hsame.state.symm.trans rfl))
  have hprep : optionalText journal.preparedGeneration = .null := hsame.prepared.symm
  have hmeets := (stepAgrees_iff sampleFenced_valid hsame).1 hagrees
  obtain ⟨-, hneeds, -⟩ := hmeets (by rw [hst]; decide)
  have hsome := hneeds rfl
  rcases hgen : journal.preparedGeneration with _ | _
  · simp [preparedAfter, generationFor, hgen] at hsome
  · rw [hgen] at hprep
    cases hprep

end ClioQueue.Bootstrap
