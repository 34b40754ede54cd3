/-
# Loading a persisted activation journal

`persist` writes whatever the fields hold and `load` validates, so an accepted step can leave a
journal that the next process refuses.  `load_persist` says exactly when it does not: the
journal passes `validate_generation_state` and its file stays within 1 MiB.

Every step but one keeps a valid journal valid.  `advance` checks the transition table alone;
the table leads into states that need a prepared generation, or the irreversible boundary,
along paths that set neither (`inspected → fencing → fenced → activating`,
`noop_verified → committed`, `recovering → migrated`).  `advance_valid_iff` is the condition
it leaves out.
-/

import ClioQueue.Bootstrap.Transaction

namespace ClioQueue.Bootstrap

variable {δ : Type} [PydanticJson δ]

/-! ### Reading back what was written -/

section Fields

variable {α : Type} {fields : Dict} {value : Json}

theorem required_sortFields (hkeys : (fields.map Prod.fst).Nodup) (read : Json → Option α)
    (key : String) (h : fields.lookup key = some value) :
    Dict.required read (Json.sortFields fields) key = read value.sortKeys := by
  rw [Dict.required, Dict.lookup_sortFields hkeys, h]
  rfl

theorem defaulted_sortFields (hkeys : (fields.map Prod.fst).Nodup) (read : Json → Option α)
    (default : α) (key : String) (h : fields.lookup key = some value) :
    Dict.defaulted read default (Json.sortFields fields) key = read value.sortKeys := by
  rw [Dict.defaulted, Dict.lookup_sortFields hkeys, h]
  rfl

end Fields

@[simp]
theorem readOptional_optionalText (text : Option String) :
    readOptional Json.str? (optionalText text).sortKeys = some text := by
  cases text <;> rfl

@[simp]
theorem readOptional_optionalFlag (flag : Option Bool) :
    readOptional (readBool δ) (TransactionJournal.optionalFlag flag).sortKeys = some flag := by
  cases flag <;> rfl

@[simp]
theorem readNamed_mode (mode : TransactionMode) :
    readNamed TransactionMode.ofValue? (Json.str mode.value).sortKeys = some mode := by
  simp [readNamed, Json.sortKeys, Json.str?]

@[simp]
theorem readNamed_state (state : TransactionState) :
    readNamed TransactionState.ofValue? (Json.str state.value).sortKeys = some state := by
  simp [readNamed, Json.sortKeys, Json.str?]

@[simp]
theorem readOptional_state (state : Option TransactionState) :
    readOptional (readNamed TransactionState.ofValue?)
      (optionalText (state.map TransactionState.value)).sortKeys = some state := by
  rcases state with _ | state
  · rfl
  · simp [optionalText, readOptional, readNamed, Json.sortKeys, Json.str?]

@[simp]
theorem readNamed_kind (kind : OwnedKind) :
    readNamed OwnedKind.ofValue? (Json.str kind.value).sortKeys = some kind := by
  simp [readNamed, Json.sortKeys, Json.str?]

@[simp]
theorem readNamed_fileType (fileType : OwnedFileType) :
    readNamed OwnedFileType.ofValue? (Json.str fileType.value).sortKeys = some fileType := by
  simp [readNamed, Json.sortKeys, Json.str?]

@[simp]
theorem readNat_num (n : Nat) : readNat δ (Json.num n "").sortKeys = some n := by
  simp [readNat, readInt, Json.sortKeys]

theorem onlyHas_sorted {fields : Dict} {keys : List String} (h : fields.map Prod.fst = keys) :
    Dict.onlyHas (Json.sortFields fields) keys = true := by
  rw [Dict.onlyHas_sortFields, Dict.onlyHas_iff, h]
  exact fun _ hkey => hkey

/-- **An identity is read back.** -/
theorem readOwnedPathIdentity_toDict (identity : OwnedPathIdentity) :
    readOwnedPathIdentity δ (Json.obj identity.toDict).sortKeys = some identity := by
  have hnd : (identity.toDict.map Prod.fst).Nodup := by
    show identityFields.Nodup
    decide
  have honly : Dict.onlyHas (Json.sortFields identity.toDict) identityFields = true :=
    onlyHas_sorted rfl
  have hfileType := required_sortFields hnd (readNamed OwnedFileType.ofValue?) "file_type" rfl
  have hsha256 := defaulted_sortFields hnd (readOptional Json.str?) none "sha256" rfl
  have htgt := defaulted_sortFields hnd (readOptional Json.str?) none "symlink_target" rfl
  rw [readNamed_fileType] at hfileType
  rw [readOptional_optionalText] at hsha256 htgt
  have hnum : ∀ key n, identity.toDict.lookup key = some (.num (n : Nat) "") →
      Dict.required (readNat δ) (Json.sortFields identity.toDict) key = some n := by
    intro key n h
    rw [required_sortFields hnd _ key h, readNat_num]
  rw [Json.sortKeys, readOwnedPathIdentity, Json.obj?, Option.bind_some,
    if_pos honly, hfileType, hsha256, htgt,
    hnum "device" identity.device rfl, hnum "inode" identity.inode rfl,
    hnum "changed_ns" identity.changedNs rfl, hnum "size" identity.size rfl]
  exact dif_pos identity.evidence

theorem readOptional_identity (identity : Option OwnedPathIdentity) :
    readOptional (readOwnedPathIdentity δ) (identityJson identity).sortKeys = some identity := by
  rcases identity with _ | identity
  · rfl
  · have hread := readOwnedPathIdentity_toDict (δ := δ) identity
    rw [Json.sortKeys] at hread
    show (readOwnedPathIdentity δ (Json.obj (Json.sortFields identity.toDict))).map some = _
    rw [hread]
    rfl

/-- **An owned path is read back.** -/
theorem readOwnedPath_toDict (owned : OwnedPath) :
    readOwnedPath δ (Json.obj owned.toDict).sortKeys = some owned := by
  have hnd : (owned.toDict.map Prod.fst).Nodup := by
    show ownedPathFields.Nodup
    decide
  have honly : Dict.onlyHas (Json.sortFields owned.toDict) ownedPathFields = true :=
    onlyHas_sorted rfl
  have hpath := required_sortFields hnd Json.str? "path" rfl
  have hkind := required_sortFields hnd (readNamed OwnedKind.ofValue?) "kind" rfl
  have hident := defaulted_sortFields hnd (readOptional (readOwnedPathIdentity δ)) none
    "identity" rfl
  rw [readNamed_kind] at hkind
  rw [readOptional_identity] at hident
  rw [Json.sortKeys, readOwnedPath, Json.obj?, Option.bind_some, if_pos honly, hpath, hkind, hident]
  exact dif_pos owned.valid

/-- The entries of a dictionary are read back in the order of their keys. -/
theorem readEntries_sorted {α : Type} (read : Json → Option α) (toJson : α → Json)
    (h : ∀ a, read (toJson a).sortKeys = some a) (entries : List (String × α)) :
    ∃ sorted, sorted.Perm entries ∧
      readEntries read (Json.obj (entries.map fun e => (e.1, toJson e.2))).sortKeys =
        some sorted := by
  obtain ⟨sorted, hperm, hsort⟩ := Json.sortFields_map entries toJson
  refine ⟨sorted, hperm, ?_⟩
  rw [Json.sortKeys, hsort, readEntries, Json.obj?, Option.bind_some]
  clear hperm hsort
  induction sorted with
  | nil => rfl
  | cons e sorted ih => simp [List.mapM_cons, h, ih]

namespace TransactionJournal

/-- The same journal: dictionaries are equal whatever the order of their entries. -/
structure Same (journal other : TransactionJournal δ) : Prop where
  owned : other.ownedPaths.Perm journal.ownedPaths
  phases : other.phaseIdentities.Perm journal.phaseIdentities
  others : other = { journal with
    ownedPaths := other.ownedPaths, phaseIdentities := other.phaseIdentities }

omit [PydanticJson δ] in
/-- The order of the dictionaries does not matter to the validation. -/
theorem Same.validate {journal other : TransactionJournal δ} (h : Same journal other) :
    other.validateGenerationState = journal.validateGenerationState := by
  have hown : ((other.ownedPaths.map fun entry => entry.2.path).Nodup) ↔
      ((journal.ownedPaths.map fun entry => entry.2.path).Nodup) := (h.owned.map _).nodup_iff
  unfold validateGenerationState
  rw [decide_eq_decide.2 hown, h.phases.all_eq, h.others]

/-- **What `model_validate` makes of a persisted journal.** -/
theorem modelValidate_persist (journal : TransactionJournal δ) (now : δ) :
    ∃ other, Same journal other ∧ modelValidate now journal.persist =
      if journal.validateGenerationState then some other else none := by
  obtain ⟨owned, hown, hreadOwned⟩ := readEntries_sorted (readOwnedPath δ)
    (fun owned => .obj owned.toDict) readOwnedPath_toDict journal.ownedPaths
  obtain ⟨phases, hph, hreadPhases⟩ := readEntries_sorted Json.str? .str
    (fun _ => rfl) journal.phaseIdentities
  have hsame : Same journal { journal with ownedPaths := owned, phaseIdentities := phases } :=
    ⟨hown, hph, rfl⟩
  refine ⟨_, hsame, ?_⟩
  have hnd : (journal.dumpFields.map Prod.fst).Nodup := by
    show journalFields.Nodup
    decide
  have honly : Dict.onlyHas (Json.sortFields journal.dumpFields) journalFields = true :=
    onlyHas_sorted rfl
  have htext : ∀ key text, journal.dumpFields.lookup key = some (.str text) →
      Dict.required Json.str? (Json.sortFields journal.dumpFields) key = some text := by
    intro key text h
    rw [required_sortFields hnd _ key h]
    rfl
  have htime : ∀ key time, journal.dumpFields.lookup key = some (.str (PydanticJson.isoformat time)) →
      Dict.defaulted PydanticJson.datetime now (Json.sortFields journal.dumpFields) key =
        some time := by
    intro key time h
    rw [defaulted_sortFields hnd _ now key h]
    exact PydanticJson.datetime_isoformat time
  have hoptional : ∀ key text, journal.dumpFields.lookup key = some (optionalText text) →
      Dict.defaulted (readOptional Json.str?) none (Json.sortFields journal.dumpFields) key =
        some text := by
    intro key text h
    rw [defaulted_sortFields hnd _ none key h, readOptional_optionalText]
  have hflag : ∀ key flag, journal.dumpFields.lookup key = some (optionalFlag flag) →
      Dict.defaulted (readOptional (readBool δ)) none (Json.sortFields journal.dumpFields) key =
        some flag := by
    intro key flag h
    rw [defaulted_sortFields hnd _ none key h, readOptional_optionalFlag]
  rw [persist, Json.sortKeys, modelValidate, Json.obj?, Option.bind_some, if_pos honly,
    defaulted_sortFields hnd _ _ "schema_version" rfl,
    htext "invocation_id" _ rfl, htext "desired_fingerprint" _ rfl,
    defaulted_sortFields hnd _ _ "mode" rfl, readNamed_mode,
    defaulted_sortFields hnd _ _ "state" rfl, readNamed_state,
    htime "started_at" _ rfl, htime "updated_at" _ rfl,
    hoptional "previous_generation" _ rfl, hoptional "prepared_generation" _ rfl,
    hoptional "service_name" _ rfl, hflag "service_was_active" _ rfl,
    hflag "service_was_enabled" _ rfl,
    defaulted_sortFields hnd _ _ "recovered_from" rfl, readOptional_state,
    defaulted_sortFields hnd _ _ "irreversible_boundary" rfl,
    defaulted_sortFields hnd _ _ "owned_paths" rfl, hreadOwned,
    defaulted_sortFields hnd _ _ "phase_identities" rfl, hreadPhases, ← hsame.validate]
  rfl

/-- The next process loads what was persisted. -/
def Loads (path : String) (now : δ) (journal : TransactionJournal δ) : Prop :=
  ∃ other, load path now journal.persist = .ok other ∧ Same journal other

/-- **A persisted journal loads** exactly when it is valid and its file is within the bound. -/
theorem loads_iff (path : String) (now : δ) (journal : TransactionJournal δ) :
    Loads path now journal ↔
      journal.validateGenerationState = true ∧ journal.persist.fileBytes ≤ maxJournalBytes := by
  obtain ⟨other, hsame, hread⟩ := modelValidate_persist journal now
  unfold Loads load
  rw [hread]
  by_cases hvalid : journal.validateGenerationState = true
  · by_cases hsize : journal.persist.fileBytes ≤ maxJournalBytes
    · rw [if_pos hsize, if_pos hvalid]
      exact ⟨fun _ => ⟨hvalid, hsize⟩, fun _ => ⟨other, rfl, hsame⟩⟩
    · rw [if_neg hsize]
      constructor
      · rintro ⟨_, ⟨⟩, _⟩
      · exact fun h => absurd h.2 hsize
  · rw [if_neg hvalid]
    constructor
    · rintro ⟨_, hload, _⟩
      split_ifs at hload
    · exact fun h => absurd h.1 hvalid

/-! ### One step -/

/-- `journal.prepared_generation = …`, when there is something to assign. -/
def assign (journal : TransactionJournal δ) (generation : Option String) : TransactionJournal δ :=
  { journal with preparedGeneration := generation.or journal.preparedGeneration }

end TransactionJournal

/-- A method call: an `advance`, perhaps after an assignment to `prepared_generation`, a
`record_phase` or a `complete_recovery`. -/
inductive TransactionStep where
  | advance (generation : Option String) (state : TransactionState)
  | recordPhase (phase identity : String)
  | completeRecovery

namespace TransactionStep

variable {journal next : TransactionJournal δ} {now : δ}

open TransactionJournal

theorem all_setEntry {entries : List (String × String)} {p : String × String → Bool}
    {key value : String} (h : entries.all p = true) (hnew : p (key, value) = true) :
    (setEntry entries key value).all p = true := by
  induction entries with
  | nil => simpa [setEntry] using hnew
  | cons e entries ih =>
    obtain ⟨k, v⟩ := e
    rw [List.all_cons, Bool.and_eq_true] at h
    rw [setEntry]
    split_ifs with hkey
    · subst hkey
      simp [hnew, h.2]
    · simp [h.1, ih h.2]

/-- The journal after a call at the time `now`. -/
def apply (journal : TransactionJournal δ) (now : δ) :
    TransactionStep → Except RelayError (TransactionJournal δ)
  | .advance generation state => (journal.assign generation).advance state now
  | .recordPhase phase identity => journal.recordPhase phase identity now
  | .completeRecovery => journal.completeRecovery now

/-- What `advance` does not check: the state it enters finds the prepared generation and the
irreversible boundary it needs. -/
def MeetsState (journal : TransactionJournal δ) : TransactionStep → Prop
  | .advance generation state =>
    (state.needsPrepared = true → ((generation.or journal.preparedGeneration).getD "") ≠ "") ∧
      (state.needsBoundary = true → journal.irreversibleBoundary = true ∨ state = .migrationStarted)
  | _ => True

omit [PydanticJson δ] in
/-- A valid journal, without its state. -/
theorem validate_iff :
    journal.validateGenerationState = true ↔
      (isSha256 journal.desiredFingerprint = true ∧ isName journal.invocationId = true ∧
        (journal.ownedPaths.map fun entry => entry.2.path).Nodup ∧
        journal.phaseIdentities.all (fun entry => isName entry.1 && isSha256 entry.2) = true) ∧
      (journal.state.needsPrepared = true → journal.preparedGeneration.getD "" ≠ "") ∧
      (journal.state.needsBoundary = true → journal.irreversibleBoundary = true) := by
  unfold validateGenerationState
  simp only [Bool.and_eq_true, decide_eq_true_eq, Bool.not_eq_true', Bool.and_eq_false_imp,
    decide_eq_false_iff_not, Bool.not_eq_false']
  tauto

omit [PydanticJson δ] in
section

variable (hvalid : journal.validateGenerationState = true)

include hvalid

/-- **`advance` keeps a journal valid** exactly when it enters a state whose needs are met. -/
theorem advance_valid_iff {generation : Option String} {state : TransactionState}
    (h : (journal.assign generation).advance state now = .ok next) :
    next.validateGenerationState = true ↔ MeetsState journal (.advance generation state) := by
  unfold TransactionJournal.advance at h
  split_ifs at h
  cases h
  obtain ⟨hfixed, -, -⟩ := validate_iff.1 hvalid
  rw [validate_iff]
  have hbdry : state.needsBoundary = true → state ≠ .activating := by
    rintro h rfl
    cases h
  simp only [assign, MeetsState, Bool.or_eq_true, decide_eq_true_eq, Bool.and_eq_true]
  constructor
  · rintro ⟨-, hprep, hcross⟩
    refine ⟨hprep, fun h => ?_⟩
    rcases hcross h with (hold | hstart) | ⟨hactivating, -⟩
    · exact .inl hold
    · exact .inr hstart
    · exact absurd hactivating (hbdry h)
  · rintro ⟨hprep, hcross⟩
    exact ⟨hfixed, hprep, fun h => .inl (hcross h)⟩

omit [PydanticJson δ] in
theorem recordPhase_valid {phase identity : String}
    (h : journal.recordPhase phase identity now = .ok next) :
    next.validateGenerationState = true := by
  unfold TransactionJournal.recordPhase at h
  split_ifs at h with hterm hname hdig hchg
  cases h
  obtain ⟨⟨hfp, hinv, hown, hph⟩, hneeds⟩ := validate_iff.1 hvalid
  refine validate_iff.2 ⟨⟨hfp, hinv, hown, ?_⟩, hneeds⟩
  have hnew : (isName phase && isSha256 identity) = true := by
    simpa using And.intro hname hdig
  exact all_setEntry (p := fun entry => isName entry.1 && isSha256 entry.2) hph hnew

omit [PydanticJson δ] in
theorem completeRecovery_valid
    (h : journal.completeRecovery now = .ok next) : next.validateGenerationState = true := by
  unfold TransactionJournal.completeRecovery at h
  split_ifs at h
  cases h
  obtain ⟨hfixed, -, -⟩ := validate_iff.1 hvalid
  refine validate_iff.2 ⟨hfixed, ?_, ?_⟩
  · rintro ⟨⟩
  · rintro ⟨⟩

omit [PydanticJson δ] in
/-- **What a step does to a valid journal.** -/
theorem apply_valid_iff {step : TransactionStep} (h : step.apply journal now = .ok next) :
    next.validateGenerationState = true ↔ step.MeetsState journal := by
  cases step with
  | advance => exact advance_valid_iff hvalid h
  | recordPhase => exact iff_of_true (recordPhase_valid hvalid h) trivial
  | completeRecovery => exact iff_of_true (completeRecovery_valid hvalid h) trivial

end

end TransactionStep

/-! ### Runs -/

/-- `P` holds of every accepted call of a sequence, with the journal before and after it; the
sequence ends at a call that is refused. -/
def Along (P : TransactionJournal δ → TransactionStep → TransactionJournal δ → Prop) :
    TransactionJournal δ → List (TransactionStep × δ) → Prop
  | _, [] => True
  | journal, (step, now) :: rest =>
    match step.apply journal now with
    | .ok next => P journal step next ∧ Along P next rest
    | .error _ => True

/-- The call enters a state whose needs are met, and its file stays within the bound. -/
def Sound (journal : TransactionJournal δ) (step : TransactionStep)
    (next : TransactionJournal δ) : Prop :=
  step.MeetsState journal ∧ next.persist.fileBytes ≤ maxJournalBytes

/-- **Every journal along a sequence of accepted calls loads** exactly when every call enters a
state whose needs are met and every file stays within the bound. -/
theorem persisted_journals_load_iff (path : String) (now : δ) (steps : List (TransactionStep × δ))
    (journal : TransactionJournal δ) (hvalid : journal.validateGenerationState = true) :
    Along (fun _ _ next => next.Loads path now) journal steps ↔ Along Sound journal steps := by
  induction steps generalizing journal with
  | nil => exact Iff.rfl
  | cons call rest ih =>
    obtain ⟨step, time⟩ := call
    rw [Along, Along]
    rcases happly : step.apply journal time with _ | next
    · exact Iff.rfl
    · have hnext := TransactionStep.apply_valid_iff hvalid happly
      have hloads : next.Loads path now ↔ Sound journal step next := by
        rw [TransactionJournal.loads_iff, hnext]
        rfl
      constructor
      · rintro ⟨hload, hrest⟩
        have hsound := hloads.1 hload
        exact ⟨hsound, (ih next (hnext.2 hsound.1)).1 hrest⟩
      · rintro ⟨hsound, hrest⟩
        exact ⟨hloads.2 hsound, (ih next (hnext.2 hsound.1)).2 hrest⟩

/-- A time kept as its ISO text. -/
structure IsoTime where
  text : String
  deriving DecidableEq

instance : PydanticJson IsoTime where
  floatAsInt n fraction := if fraction = ".0" then some n else none
  textAsInt text := text.toInt?
  floatAsBool n fraction := if fraction = ".0" then
    if n = 0 then some false else if n = 1 then some true else none else none
  textAsBool text :=
    if ["1", "on", "t", "true", "y", "yes"].contains text then some true
    else if ["0", "off", "f", "false", "n", "no"].contains text then some false
    else none
  datetime value := value.str?.map IsoTime.mk
  isoformat time := time.text
  datetime_isoformat _ := rfl

/-- A digest. -/
def sampleDigest : String := String.ofList (List.replicate 64 'a')

/-- A journal as it is created. -/
def sampleTransaction : TransactionJournal IsoTime where
  invocationId := "run"
  desiredFingerprint := sampleDigest
  mode := .relayOnly
  state := .locked
  startedAt := ⟨"2026-01-01T00:00:00Z"⟩
  updatedAt := ⟨"2026-01-01T00:00:00Z"⟩
  previousGeneration := none
  preparedGeneration := none
  serviceName := none
  serviceWasActive := none
  serviceWasEnabled := none
  recoveredFrom := none
  irreversibleBoundary := false
  ownedPaths := []
  phaseIdentities := [("locked", sampleDigest)]

/-- Calls one second apart. -/
def sampleCalls (steps : List TransactionStep) : List (TransactionStep × IsoTime) :=
  steps.map fun step => (step, ⟨"2026-01-01T00:00:01Z"⟩)

instance (journal : TransactionJournal δ) (step : TransactionStep) :
    Decidable (step.MeetsState journal) :=
  match step with
  | .advance .. => inferInstanceAs (Decidable (_ ∧ _))
  | .recordPhase .. | .completeRecovery => isTrue trivial

instance (journal next : TransactionJournal δ) (step : TransactionStep) :
    Decidable (Sound journal step next) := inferInstanceAs (Decidable (_ ∧ _))

instance decidableAlong {P : TransactionJournal δ → TransactionStep → TransactionJournal δ → Prop}
    [∀ journal step next, Decidable (P journal step next)] :
    ∀ (journal : TransactionJournal δ) (steps : List (TransactionStep × δ)),
      Decidable (Along P journal steps)
  | _, [] => isTrue trivial
  | journal, (step, now) :: rest =>
    match h : step.apply journal now with
    | .ok next =>
      have := decidableAlong (P := P) next rest
      decidable_of_iff (P journal step next ∧ Along P next rest) (by rw [Along, h])
    | .error _ => isTrue (by rw [Along, h]; trivial)

/-- The journal of a run whose service is verified. -/
def sampleVerified : TransactionJournal IsoTime :=
  { sampleTransaction with
    state := .serviceVerified
    preparedGeneration := some "generation-2"
    irreversibleBoundary := true }

/-- The state after a sequence of accepted calls. -/
def stateAfter (journal : TransactionJournal IsoTime) (steps : List (TransactionStep × IsoTime)) :
    Option TransactionState :=
  (steps.foldlM (fun journal (call : TransactionStep × IsoTime) => call.1.apply journal call.2)
    journal).toOption.map TransactionJournal.state

/-- The calls up to the prepared generation, and the call that commits, are accepted and leave
journals that load. -/
theorem persisted_journals_load_iff_committed :
    let prepare := sampleCalls [.advance none .inspected, .advance none .preparing,
      .advance (some "generation-2") .prepared]
    let commit := sampleCalls [.advance none .committed]
    stateAfter sampleTransaction prepare = some .prepared ∧
      stateAfter sampleVerified commit = some .committed ∧
      Along (fun _ _ next => next.Loads "bootstrap.json" ⟨"2026-01-01T00:00:02Z"⟩)
        sampleTransaction prepare ∧
      Along (fun _ _ next => next.Loads "bootstrap.json" ⟨"2026-01-01T00:00:02Z"⟩)
        sampleVerified commit :=
  ⟨by decide +kernel, by decide +kernel,
    (persisted_journals_load_iff _ _ _ _ (by decide +kernel)).2 (by decide +kernel),
    (persisted_journals_load_iff _ _ _ _ (by decide +kernel)).2 (by decide +kernel)⟩

/-- A no-op run that is committed without a prepared generation: every call is accepted and the
committed journal is refused. -/
theorem committed_noop_refused :
    sampleTransaction.validateGenerationState = true ∧
      ¬ Along (fun _ _ next => next.Loads "bootstrap.json" ⟨"2026-01-01T00:00:02Z"⟩)
        sampleTransaction
        (sampleCalls [.advance none .inspected, .advance none .noopVerified,
          .advance none .committed]) := by
  refine ⟨by decide +kernel, ?_⟩
  rintro ⟨-, -, hload, -⟩
  have hvalid := ((TransactionJournal.loads_iff _ _ _).1 hload).1
  revert hvalid
  decide +kernel

end ClioQueue.Bootstrap
