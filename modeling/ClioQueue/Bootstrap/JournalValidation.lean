/-
# What the journal's validation accepts

`Journal.Valid` states what `_validate_journal` accepts, field by field, and
`validateJournal_ok_iff` reads it off the function.  The owned paths and the phases are read
entry by entry: `coerceOwnedIdentity_eq_some`, `coerceOwnedPath_eq_ok`,
`coerceOwnedPaths_eq_ok` and `coercePhaseIdentities_eq_ok` say from which entries.
-/

import ClioQueue.Bootstrap.JournalDocument
import ClioQueue.Durable.Results
import Mathlib.Algebra.Ring.Int.Defs

namespace ClioQueue.Bootstrap

variable {entries : Dict} {value : Json} {owned : List (String × OwnedPath)}
  {phases : List (String × String)} {observed : List String} {field path text : String} {u : Unit}

open Durable

/-! ### What the validation accepts -/

@[simp]
theorem ensure_eq_ok {condition : Bool} {message : String} :
    ensure condition message = .ok u ↔ condition = true := by
  cases condition <;> simp [ensure]

theorem str?_eq_some : value.str? = some text ↔ value = .str text := by
  cases value <;> simp [Json.str?]

@[simp]
theorem string_eq_ok {value : Dict} :
    string value field = .ok text ↔ value.get field = .str text := by
  rw [← str?_eq_some, string]
  cases (value.get field).str? <;> simp

@[simp]
theorem memberOf_eq_true {names : List String} :
    memberOf names value = .ok true ↔ ∃ text ∈ names, value = .str text := by
  cases value <;> simp [memberOf]

/-- **What `_validate_journal` accepts.** -/
structure Journal.Valid (value : Dict) : Prop where
  fields : hasExactly value journalFields = true
  schema : value.get "schema_version" = .str bootstrapTransactionSchema
  invocation : ∃ text, value.get "invocation_id" = .str text ∧ isIdentifier text = true
  fingerprint : ∃ text, value.get "desired_fingerprint" = .str text ∧ isSha256 text = true
  mode : ∃ text ∈ transactionModes, value.get "mode" = .str text
  state : ∃ text ∈ knownStates, value.get "state" = .str text
  recovered : value.get "recovered_from" = .null ∨
    ∃ text ∈ knownStates, value.get "recovered_from" = .str text
  active : isOptionalBool (value.get "service_was_active") = true
  enabled : isOptionalBool (value.get "service_was_enabled") = true
  boundary : ∃ b, value.get "irreversible_boundary" = .bool b
  prepared : isOptionalText isSha256 (value.get "prepared_generation") = true
  needsPrepared : ∀ text ∈ preparedStates, value.get "state" = .str text →
    value.get "prepared_generation" ≠ .null
  needsBoundary : ∀ text ∈ boundaryStates, value.get "state" = .str text →
    value.get "irreversible_boundary" = .bool true
  owned : ∃ owned, coerceOwnedPaths (value.get "owned_paths") = .ok owned
  phases : ∃ phases, coercePhaseIdentities (value.get "phase_identities") = .ok phases

theorem isBool_iff :
    (isOptionalBool value && decide (value ≠ .null)) = true ↔ ∃ b, value = .bool b := by
  cases value <;> simp [isOptionalBool]

@[simp]
theorem knowsRecovered_eq_true :
    knowsRecovered value = .ok true ↔
      value = .null ∨ ∃ text ∈ knownStates, value = .str text := by
  unfold knowsRecovered
  split_ifs with h
  · simp [h]
  · simp [h]

/-- **`_validate_journal` accepts exactly the valid journals.** -/
theorem validateJournal_ok_iff {value : Dict} :
    validateJournal value = .ok u ↔ Journal.Valid value := by
  unfold validateJournal
  simp only [bind_eq_ok, ensure_eq_ok, string_eq_ok, exists_const, isBool_iff]
  constructor
  · rintro ⟨fields, schema, _, hinv, hname, _, hfp, hdig, _,
      hmode, rfl, state, hst, hknown, _, hrecov, rfl, active, enabled, boundary, prepared,
      hprep, hbdry, owned, hown, phases, hph, -⟩
    refine ⟨fields, of_decide_eq_true schema, ⟨_, hinv, hname⟩, ⟨_, hfp, hdig⟩,
      memberOf_eq_true.1 hmode, ⟨state, List.contains_iff_mem.1 hknown, hst⟩,
      knowsRecovered_eq_true.1 hrecov, active, enabled, boundary, prepared, ?_, ?_,
      ⟨_, hown⟩, ⟨_, hph⟩⟩
    · rintro text hmem htext hnone
      rw [hst] at htext
      cases htext
      simp [hmem, hnone] at hprep
    · rintro text hmem htext
      rw [hst] at htext
      cases htext
      simpa [hmem] using hbdry
  · rintro ⟨fields, schema, ⟨_, hinv, hname⟩, ⟨_, hfp, hdig⟩, hmode,
      ⟨state, hknown, hst⟩, hrecov, active, enabled, boundary, prepared, hprep,
      hbdry, ⟨owned, hown⟩, ⟨phases, hph⟩⟩
    refine ⟨fields, decide_eq_true schema, _, hinv, hname, _, hfp, hdig, _,
      memberOf_eq_true.2 hmode, rfl, state, hst, List.contains_iff_mem.2 hknown, _,
      knowsRecovered_eq_true.2 hrecov, rfl, active, enabled, boundary, prepared, ?_, ?_,
      owned, hown, phases, hph, rfl⟩
    · by_cases hmem : state ∈ preparedStates
      · simp [hprep state hmem hst]
      · simp [hmem]
    · by_cases hmem : state ∈ boundaryStates
      · simp [hbdry state hmem hst]
      · simp [hmem]

/-! ### What an owned path is read from -/

@[simp]
theorem identityNumber_eq_ok {raw : Dict} {n : Nat} :
    identityNumber raw field = .ok n ↔ Dict.get raw field = .num n "" := by
  unfold identityNumber Json.int?
  cases Dict.get raw field with
  | num k fraction =>
    by_cases hfraction : fraction = ""
    · cases k <;> simp [hfraction]
    · simp [hfraction]
  | _ => simp

@[simp]
theorem memberOf_fileType :
    memberOf ["directory", "file", "symlink"] value = .ok true ↔
      ∃ fileType : OwnedFileType, value = .str fileType.value := by
  rw [memberOf_eq_true]
  constructor
  · rintro ⟨_, hmem, rfl⟩
    simp only [List.mem_cons, List.not_mem_nil, or_false] at hmem
    rcases hmem with rfl | rfl | rfl
    · exact ⟨.directory, rfl⟩
    · exact ⟨.file, rfl⟩
    · exact ⟨.symlink, rfl⟩
  · rintro ⟨fileType, rfl⟩
    cases fileType <;> simp [OwnedFileType.value]

@[simp]
theorem memberOf_kind :
    memberOf ["directory", "file", "file_or_symlink", "symlink"] value = .ok true ↔
      ∃ kind : OwnedKind, value = .str kind.value := by
  rw [memberOf_eq_true]
  constructor
  · rintro ⟨_, hmem, rfl⟩
    simp only [List.mem_cons, List.not_mem_nil, or_false] at hmem
    rcases hmem with rfl | rfl | rfl | rfl
    · exact ⟨.directory, rfl⟩
    · exact ⟨.file, rfl⟩
    · exact ⟨.fileOrSymlink, rfl⟩
    · exact ⟨.symlink, rfl⟩
  · rintro ⟨kind, rfl⟩
    cases kind <;> simp [OwnedKind.value]

/-- A symbolic link's target has no NUL. -/
def cleanTarget (target : Option String) : Bool :=
  target.all fun text => !text.toList.contains '\x00'

/-- The evidence of an owned path is accepted exactly if it is that of its file type: a digest, a
link target, or neither. -/
theorem coerceEvidence_eq_ok {fileType : OwnedFileType} {sha256 target : Json}
    {digest link : Option String} :
    coerceEvidence fileType sha256 target = .ok (digest, link) ↔
      typeEvidence fileType digest link = true ∧ cleanTarget link = true ∧
        sha256 = optionalText digest ∧ target = optionalText link := by
  constructor
  · intro h
    have hevid := coerceEvidence_ok h
    refine ⟨hevid, ?_⟩
    unfold coerceEvidence at h
    split at h
    · split_ifs at h
      cases h
      exact ⟨rfl, rfl, rfl⟩
    · cases h
    · split_ifs at h with hclean
      cases h
      exact ⟨by simpa [cleanTarget] using hclean, rfl, rfl⟩
    · cases h
    · cases h
      exact ⟨rfl, rfl, rfl⟩
    · cases h
  · rintro ⟨hevid, hclean, rfl, rfl⟩
    cases fileType <;> cases digest <;> cases link <;>
      simp_all [typeEvidence, cleanTarget, coerceEvidence, optionalText]

/-- **The identity read from a document.** -/
theorem coerceOwnedIdentity_eq_some {identity : OwnedPathIdentity} :
    coerceOwnedIdentity value = .ok (some identity) ↔
      ∃ raw, value = .obj raw ∧ hasExactly raw identityFields = true ∧
        (∀ e ∈ identity.toDict, Dict.get raw e.1 = e.2) ∧
        cleanTarget identity.symlinkTarget = true := by
  cases value with
  | obj raw =>
    unfold coerceOwnedIdentity
    simp only [bind_eq_ok, ensure_eq_ok, identityNumber_eq_ok, exists_const]
    constructor
    · rintro ⟨hfields, _, hdev, _, hinode, _, hchg, _, hsize, _, htype, rfl, hmatch⟩
      obtain ⟨fileType, hfileType⟩ := memberOf_fileType.1 htype
      have hread : (Dict.get raw "file_type").str?.bind OwnedFileType.ofValue? = some fileType := by
        rw [hfileType]
        exact OwnedFileType.ofValue?_eq_some.2 rfl
      rw [hread] at hmatch
      dsimp only at hmatch
      split at hmatch
      · cases hmatch
      · rename_i digest link hevid
        cases hmatch
        obtain ⟨-, hclean, hsha256, htgt⟩ := coerceEvidence_eq_ok.1 hevid
        refine ⟨raw, rfl, hfields, ?_, hclean⟩
        simp only [OwnedPathIdentity.toDict, List.forall_mem_cons]
        exact ⟨hdev, hinode, hfileType, hchg, hsize, hsha256, htgt, List.forall_mem_nil _⟩
    · rintro ⟨_, ⟨⟩, hfields, hdict, hclean⟩
      simp only [OwnedPathIdentity.toDict, List.forall_mem_cons] at hdict
      obtain ⟨hdev, hinode, hfileType, hchg, hsize, hsha256, htgt, -⟩ := hdict
      have hread : (Dict.get raw "file_type").str?.bind OwnedFileType.ofValue? =
          some identity.fileType := by
        rw [hfileType]
        exact OwnedFileType.ofValue?_eq_some.2 rfl
      have hevid : coerceEvidence identity.fileType (Dict.get raw "sha256")
          (Dict.get raw "symlink_target") = .ok (identity.sha256, identity.symlinkTarget) :=
        coerceEvidence_eq_ok.2 ⟨identity.evidence, hclean, hsha256, htgt⟩
      refine ⟨hfields, _, hdev, _, hinode, _, hchg, _, hsize, _,
        memberOf_fileType.2 ⟨_, hfileType⟩, rfl, ?_⟩
      rw [hread]
      dsimp only
      split
      · rename_i _ herr
        rw [hevid] at herr
        cases herr
      · rename_i digest link hfound
        rw [hevid] at hfound
        cases hfound
        rfl
  | _ => simp [coerceOwnedIdentity]

theorem coerceOwnedIdentity_eq_none : coerceOwnedIdentity value = .ok none ↔ value = .null := by
  cases value with
  | obj =>
    unfold coerceOwnedIdentity
    simp only [bind_eq_ok, ensure_eq_ok, identityNumber_eq_ok, exists_const, reduceCtorEq,
      iff_false]
    rintro ⟨-, _, -, _, -, _, -, _, -, _, -, rfl, hmatch⟩
    split at hmatch
    · cases hmatch
    · split at hmatch
      · cases hmatch
      · cases hmatch
  | _ => simp [coerceOwnedIdentity]

@[simp]
theorem itemPath_eq_ok {item : Dict} : itemPath item = .ok path ↔ item.get "path" = .str path := by
  rw [← str?_eq_some, itemPath]
  cases (item.get "path").str? <;> simp

/-- **The owned path read from an entry.** -/
theorem coerceOwnedPath_eq_ok {name : String} {rawItem : Json} {owned : OwnedPath} :
    coerceOwnedPath name rawItem observed = .ok owned ↔
      isIdentifier name = true ∧ owned.path ∉ observed ∧ ∃ item, rawItem = .obj item ∧
        (hasExactly item ["path", "kind"] || hasExactly item ownedPathFields) = true ∧
        Dict.get item "path" = .str owned.path ∧ Dict.get item "kind" = .str owned.kind.value ∧
        coerceOwnedIdentity (Dict.get item "identity") = .ok owned.identity := by
  unfold coerceOwnedPath
  simp only [bind_eq_ok, ensure_eq_ok, itemPath_eq_ok, exists_const, Bool.and_eq_true]
  constructor
  · rintro ⟨hname, hfields, path, hpath, hctrl, habsolute, ⟨hnormal, hfresh⟩, _, hknown, rfl,
      hmatch⟩
    obtain ⟨kind, hkind⟩ := memberOf_kind.1 hknown
    have hread : (Dict.get (rawItem.obj?.getD []) "kind").str?.bind OwnedKind.ofValue? =
        some kind := by
      rw [hkind]
      exact OwnedKind.ofValue?_eq_some.2 rfl
    rw [hread] at hmatch
    obtain ⟨identity, hident, hmeets⟩ := bind_eq_ok.1 hmatch
    split_ifs at hmeets with hval
    cases hmeets
    refine ⟨hname, by simpa using hfresh, ?_⟩
    cases rawItem with
    | obj item => exact ⟨item, rfl, hfields, hpath, hkind, hident⟩
    | _ => exact absurd hpath (by simp [Json.obj?, Dict.get])
  · rintro ⟨hname, hfresh, item, rfl, hfields, hpath, hkind, hident⟩
    have hval := owned.valid
    simp only [ownedPathMeets, isNormalizedAbsolute, Bool.and_eq_true] at hval
    obtain ⟨⟨⟨habsolute, hnormal⟩, hctrl⟩, -⟩ := hval
    refine ⟨hname, hfields, _, hpath, hctrl, by simpa using habsolute,
      ⟨hnormal, by simpa using hfresh⟩, _, memberOf_kind.2 ⟨_, hkind⟩, rfl, ?_⟩
    have hread : (Dict.get ((Json.obj item).obj?.getD []) "kind").str?.bind OwnedKind.ofValue? =
        some owned.kind := by
      show (Dict.get item "kind").str?.bind OwnedKind.ofValue? = _
      rw [hkind]
      exact OwnedKind.ofValue?_eq_some.2 rfl
    rw [hread]
    refine bind_eq_ok.2 ⟨_, hident, ?_⟩
    exact dif_pos owned.valid

/-- **The owned paths read from a dictionary**: entry by entry, no path twice. -/
theorem coerceOwnedEntries_eq_ok :
    coerceOwnedEntries entries observed = .ok owned ↔
      List.Forall₂ (fun entry found => found.1 = entry.1 ∧
        coerceOwnedPath entry.1 entry.2 [] = .ok found.2) entries owned ∧
      (owned.map fun found => found.2.path).Nodup ∧
      ∀ found ∈ owned, found.2.path ∉ observed := by
  induction entries generalizing observed owned with
  | nil =>
    rw [coerceOwnedEntries]
    constructor
    · rintro ⟨⟩
      simp
    · rintro ⟨hall, -, -⟩
      cases hall
      rfl
  | cons entry rest ih =>
    obtain ⟨name, rawItem⟩ := entry
    rw [coerceOwnedEntries]
    simp only [bind_eq_ok, ih]
    constructor
    · rintro ⟨first, hfirst, others, ⟨hall, hnd, hfresh⟩, ⟨⟩⟩
      obtain ⟨hname, hnew, hitem⟩ := coerceOwnedPath_eq_ok.1 hfirst
      have hself : coerceOwnedPath name rawItem [] = .ok first :=
        coerceOwnedPath_eq_ok.2 ⟨hname, List.not_mem_nil, hitem⟩
      refine ⟨.cons ⟨rfl, hself⟩ hall, ?_, ?_⟩
      · rw [List.map_cons, List.nodup_cons, List.mem_map]
        refine ⟨?_, hnd⟩
        rintro ⟨found, hmem, hpath⟩
        exact hfresh found hmem (hpath ▸ List.mem_cons_self)
      · intro found hmem
        rcases List.mem_cons.1 hmem with rfl | hmem
        · exact hnew
        · exact fun h => hfresh found hmem (List.mem_cons_of_mem _ h)
    · rintro ⟨hall, hnd, hfresh⟩
      rcases hall with _ | ⟨hself, hall⟩
      rename_i first others
      obtain ⟨found, first⟩ := first
      obtain ⟨rfl, hself⟩ := hself
      obtain ⟨hname, -, hitem⟩ := coerceOwnedPath_eq_ok.1 hself
      rw [List.map_cons, List.nodup_cons] at hnd
      have hnew : first.path ∉ observed := hfresh _ List.mem_cons_self
      refine ⟨first, coerceOwnedPath_eq_ok.2 ⟨hname, hnew, hitem⟩, others, ⟨hall, hnd.2, ?_⟩, rfl⟩
      intro found hmem hseen
      rcases List.mem_cons.1 hseen with hpath | hseen
      · exact hnd.1 (List.mem_map.2 ⟨found, hmem, hpath⟩)
      · exact hfresh found (List.mem_cons_of_mem _ hmem) hseen

/-- **The phases read from a dictionary.** -/
theorem coercePhaseEntries_eq_ok :
    coercePhaseEntries entries = .ok phases ↔
      entries = phases.map (fun phase => (phase.1, .str phase.2)) ∧
      ∀ phase ∈ phases, (isIdentifier phase.1 && isSha256 phase.2) = true := by
  induction entries generalizing phases with
  | nil =>
    rw [coercePhaseEntries]
    cases phases <;> simp
  | cons entry rest ih =>
    obtain ⟨_, value⟩ := entry
    cases value with
    | str =>
      rw [coercePhaseEntries]
      simp only [bind_eq_ok, ih, ensure_eq_ok, exists_const]
      constructor
      · rintro ⟨hval, _, ⟨rfl, hall⟩, ⟨⟩⟩
        exact ⟨rfl, List.forall_mem_cons.2 ⟨hval, hall⟩⟩
      · rintro ⟨heq, hall⟩
        rcases phases with _ | ⟨phase, phases⟩
        · cases heq
        · obtain ⟨_, _⟩ := phase
          simp only [List.map_cons, List.cons.injEq, Prod.mk.injEq, Json.str.injEq] at heq
          obtain ⟨⟨rfl, rfl⟩, rfl⟩ := heq
          rw [List.forall_mem_cons] at hall
          exact ⟨hall.1, phases, ⟨rfl, hall.2⟩, rfl⟩
    | _ => cases phases <;> simp [coercePhaseEntries]

theorem coercePhaseIdentities_eq_ok :
    coercePhaseIdentities value = .ok phases ↔
      value = .obj (phases.map fun phase => (phase.1, .str phase.2)) ∧ phases ≠ [] ∧
      ∀ phase ∈ phases, (isIdentifier phase.1 && isSha256 phase.2) = true := by
  cases value with
  | obj =>
    rw [coercePhaseIdentities]
    simp only [bind_eq_ok, coercePhaseEntries_eq_ok, ensure_eq_ok, exists_const, Json.obj.injEq]
    constructor
    · rintro ⟨hne, rfl, hall⟩
      exact ⟨rfl, by simpa using hne, hall⟩
    · rintro ⟨rfl, hne, hall⟩
      exact ⟨by simpa using hne, rfl, hall⟩
  | _ => simp [coercePhaseIdentities]

theorem coerceOwnedPaths_eq_ok :
    coerceOwnedPaths value = .ok owned ↔ ∃ entries, value = .obj entries ∧
      entries.length ≤ 128 ∧
      List.Forall₂ (fun entry found => found.1 = entry.1 ∧
        coerceOwnedPath entry.1 entry.2 [] = .ok found.2) entries owned ∧
      (owned.map fun found => found.2.path).Nodup := by
  cases value with
  | obj =>
    rw [coerceOwnedPaths]
    simp only [bind_eq_ok, coerceOwnedEntries_eq_ok, ensure_eq_ok, exists_const,
      decide_eq_true_eq, List.not_mem_nil, not_false_eq_true, implies_true, and_true,
      Json.obj.injEq, exists_eq_left']
  | _ => simp [coerceOwnedPaths]

end ClioQueue.Bootstrap
