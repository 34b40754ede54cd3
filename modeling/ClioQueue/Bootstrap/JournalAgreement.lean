/-
# The two journal implementations

`bootstrap_journal.py` writes the journal of a first install with the standard library alone;
`BootstrapTransactionJournal` reads and writes the same file once pydantic is installed.  A
recovery may start in one and finish in the other.

`SharedRules` are the rules both have for a document, `StandardRules` those of
`_validate_journal` alone, `ActivationRules` those of the model alone, so that the two accept
the same documents except where a document that meets the shared rules meets one of the two
other sets and not the other (`validateJournal_iff_rules`, `modelValidate_iff_rules`).  On a
document that both accept, `advance_journal` and `advance` agree except in the two places where
they were written differently: only `advance_journal` validates what it is about to write,
and only `advance` crosses the irreversible boundary at `activating`.
-/

import ClioQueue.Bootstrap.JournalValidation
import ClioQueue.Bootstrap.TransactionRuns

namespace ClioQueue.Bootstrap

open TransactionJournal

variable {δ : Type} [PydanticJson δ]
  {value : Json} {owned : OwnedPath} {field text : String} {journal : TransactionJournal δ}
  {state : TransactionState} {now : δ}

/-! ### Reading one field -/

/-- A field is missing, or its value passes. -/
def passes (value : Dict) (field : String) (accepts : Json → Bool) : Bool :=
  (value.lookup field).all accepts

theorem defaulted_isSome {α : Type} (read : Json → Option α) (default : α) (value : Dict)
    (field : String) :
    (∃ a, Dict.defaulted read default value field = some a) ↔
      passes value field (fun found => (read found).isSome) = true := by
  unfold Dict.defaulted passes
  rcases value.lookup field with _ | found
  · simp
  · simp [Option.isSome_iff_exists]

/-- A field that must be there, read by a function that rejects `None`. -/
theorem required_eq {α : Type} {read : Json → Option α} (hnull : read .null = none)
    (value : Dict) (field : String) : Dict.required read value field = read (value.get field) := by
  unfold Dict.required Dict.get
  rcases value.lookup field with _ | _
  · exact hnull.symm
  · rfl

/-- A field whose default is `None`. -/
theorem defaulted_readOptional {α : Type} (read : Json → Option α) (value : Dict) (field : String) :
    Dict.defaulted (readOptional read) none value field = readOptional read (value.get field) := by
  unfold Dict.defaulted Dict.get
  rcases value.lookup field with _ | _
  · rfl
  · rfl

theorem defaulted_of_has {α : Type} (read : Json → Option α) (default : α) {value : Dict}
    (h : value.has field = true) :
    Dict.defaulted read default value field = read (value.get field) := by
  unfold Dict.has at h
  unfold Dict.defaulted Dict.get
  obtain ⟨_, hfound⟩ := Option.isSome_iff_exists.1 h
  rw [hfound]
  rfl

theorem passes_of_has {value : Dict} {accepts : Json → Bool} (h : value.has field = true) :
    passes value field accepts = accepts (value.get field) := by
  unfold Dict.has at h
  unfold passes Dict.get
  obtain ⟨_, hfound⟩ := Option.isSome_iff_exists.1 h
  rw [hfound]
  rfl

theorem readOptional_str? {text : Option String} :
    readOptional Json.str? value = some text ↔ value = optionalText text := by
  cases value <;> cases text <;> simp [readOptional, Json.str?, optionalText]

theorem readNamed_eq_some {α : Type} {ofValue? : String → Option α} {a : α} :
    readNamed ofValue? value = some a ↔ ∃ text, value = .str text ∧ ofValue? text = some a := by
  cases value <;> simp [readNamed, Json.str?]

/-- A number that pydantic reads and that is written as an integer. -/
theorem readNat_int {n : Nat} :
    (readNat δ value = some n ∧ value.int?.isSome = true) ↔ value = .num n "" := by
  cases value with
  | num k fraction =>
    by_cases hfraction : fraction = ""
    · subst hfraction
      simp only [readNat, readInt, if_true, Option.bind_some, Json.int?, Option.isSome_some,
        and_true, Option.ite_none_right_eq_some, Option.some.injEq, Json.num.injEq]
      omega
    · simp [Json.int?, hfraction]
  | _ => simp [Json.int?]

/-! ### Owned paths -/

/-- The numbers of an identity. -/
def identityNumbers : List String := ["device", "inode", "changed_ns", "size"]

/-- The identity of an owned path has all its fields, its numbers are written as integers and
its link target has no NUL. -/
def exactIdentity (identity : Json) : Bool :=
  match identity with
  | .obj raw =>
    identityFields.all (Dict.has raw) &&
      identityNumbers.all (fun field => (Dict.get raw field).int?.isSome) &&
      cleanTarget (Dict.get raw "symlink_target").str?
  | _ => true

theorem readNat_null : readNat δ .null = none := rfl

/-- **The identity pydantic reads.** -/
theorem readOwnedPathIdentity_eq_some {identity : OwnedPathIdentity} :
    readOwnedPathIdentity δ value = some identity ↔
      ∃ raw : Dict, value = .obj raw ∧ raw.onlyHas identityFields = true ∧
        readNat δ (Dict.get raw "device") = some identity.device ∧
        readNat δ (Dict.get raw "inode") = some identity.inode ∧
        Dict.get raw "file_type" = .str identity.fileType.value ∧
        readNat δ (Dict.get raw "changed_ns") = some identity.changedNs ∧
        readNat δ (Dict.get raw "size") = some identity.size ∧
        Dict.get raw "sha256" = optionalText identity.sha256 ∧
        Dict.get raw "symlink_target" = optionalText identity.symlinkTarget := by
  cases value with
  | obj =>
    have hnamed : readNamed OwnedFileType.ofValue? .null = none := rfl
    unfold readOwnedPathIdentity
    simp only [Json.obj?, Option.bind_some, required_eq readNat_null, required_eq hnamed,
      defaulted_readOptional, Option.bind_eq_bind, Option.ite_none_right_eq_some,
      Option.bind_eq_some_iff, readNamed_eq_some, OwnedFileType.ofValue?_eq_some,
      readOptional_str?, Option.dite_none_right_eq_some, Json.obj.injEq, exists_eq_left',
      exists_eq_right]
    constructor
    · rintro ⟨honly, device, hdev, inode, hinode, fileType, hfileType, changedNs, hchg,
        size, hsize, sha256, hsha256, target, htgt, hevid, hident⟩
      cases hident
      exact ⟨honly, hdev, hinode, hfileType, hchg, hsize, hsha256, htgt⟩
    · rintro ⟨honly, hdev, hinode, hfileType, hchg, hsize, hsha256, htgt⟩
      exact ⟨honly, _, hdev, _, hinode, _, hfileType, _, hchg, _, hsize, _, hsha256, _,
        htgt, identity.evidence, rfl⟩
  | _ => simp [readOwnedPathIdentity, Json.obj?]

/-- The standard-library reader accepts an identity exactly if the model reads the same one and all
its fields are there, numbers as integers and the link target clean. -/
theorem coerceOwnedIdentity_iff_read {identity : Option OwnedPathIdentity} :
    coerceOwnedIdentity value = .ok identity ↔
      readOptional (readOwnedPathIdentity δ) value = some identity ∧
        exactIdentity value = true := by
  rcases identity with _ | identity
  · rw [coerceOwnedIdentity_eq_none]
    cases value <;> simp [readOptional, exactIdentity]
  · have hread : readOptional (readOwnedPathIdentity δ) value = some (some identity) ↔
        readOwnedPathIdentity δ value = some identity := by
      cases value <;> simp [readOptional, readOwnedPathIdentity, Json.obj?]
    rw [hread, coerceOwnedIdentity_eq_some, readOwnedPathIdentity_eq_some]
    constructor
    · rintro ⟨raw, rfl, hfields, hdict, hclean⟩
      simp only [OwnedPathIdentity.toDict, List.forall_mem_cons] at hdict
      obtain ⟨hdev, hinode, hfileType, hchg, hsize, hsha256, htgt, -⟩ := hdict
      rw [hasExactly, Bool.and_eq_true] at hfields
      refine ⟨⟨raw, rfl, hfields.1, (readNat_int.2 hdev).1, (readNat_int.2 hinode).1,
        hfileType, (readNat_int.2 hchg).1, (readNat_int.2 hsize).1, hsha256, htgt⟩, ?_⟩
      have htext : (Dict.get raw "symlink_target").str? = identity.symlinkTarget := by
        rw [htgt]
        cases identity.symlinkTarget <;> rfl
      simp only [exactIdentity, hfields.2, htext, hclean, identityNumbers, List.all_cons,
        hdev, hinode, hchg, hsize, Json.int?]
      rfl
    · rintro ⟨⟨raw, rfl, honly, hdev, hinode, hfileType, hchg, hsize, hsha256, htgt⟩, hexact⟩
      simp only [exactIdentity, Bool.and_eq_true, identityNumbers, List.all_cons, List.all_nil,
        and_true] at hexact
      obtain ⟨⟨hall, hints⟩, hclean⟩ := hexact
      refine ⟨raw, rfl, by rw [hasExactly, honly, hall]; rfl, ?_, ?_⟩
      · simp only [OwnedPathIdentity.toDict, List.forall_mem_cons]
        exact ⟨readNat_int.1 ⟨hdev, hints.1⟩, readNat_int.1 ⟨hinode, hints.2.1⟩, hfileType,
          readNat_int.1 ⟨hchg, hints.2.2.1⟩, readNat_int.1 ⟨hsize, hints.2.2.2⟩, hsha256,
          htgt, List.forall_mem_nil _⟩
      · rw [htgt] at hclean
        rcases htext : identity.symlinkTarget with _ | _
        · rfl
        · rw [htext] at hclean
          exact hclean

/-- **The owned path pydantic reads.** -/
theorem readOwnedPath_eq_some :
    readOwnedPath δ value = some owned ↔
      ∃ item : Dict, value = .obj item ∧ item.onlyHas ownedPathFields = true ∧
        Dict.get item "path" = .str owned.path ∧ Dict.get item "kind" = .str owned.kind.value ∧
        readOptional (readOwnedPathIdentity δ) (Dict.get item "identity") =
          some owned.identity := by
  cases value with
  | obj =>
    have hnamed : readNamed OwnedKind.ofValue? .null = none := rfl
    have hstr : Json.str? .null = none := rfl
    unfold readOwnedPath
    simp only [Json.obj?, Option.bind_some, required_eq hstr, required_eq hnamed,
      defaulted_readOptional, Option.bind_eq_bind, Option.ite_none_right_eq_some,
      Option.bind_eq_some_iff, readNamed_eq_some, OwnedKind.ofValue?_eq_some, str?_eq_some,
      Option.dite_none_right_eq_some, Json.obj.injEq, exists_eq_left', exists_eq_right]
    constructor
    · rintro ⟨honly, path, hpath, kind, hkind, identity, hident, _, hown⟩
      cases hown
      exact ⟨honly, hpath, hkind, hident⟩
    · rintro ⟨honly, hpath, hkind, hident⟩
      exact ⟨honly, _, hpath, _, hkind, _, hident, owned.valid, rfl⟩
  | _ => simp [readOwnedPath, Json.obj?]

/-- What only `_coerce_owned_paths` asks of an entry. -/
def exactEntry (entry : String × Json) : Bool :=
  isIdentifier entry.1 && exactIdentity (Dict.get (entry.2.obj?.getD []) "identity")

theorem has_of_get {value : Dict} (h : value.get field ≠ .null) : value.has field = true := by
  unfold Dict.has
  unfold Dict.get at h
  rcases hlook : value.lookup field with _ | _
  · exact absurd (by rw [hlook]; rfl) h
  · rfl

/-- The two field sets of an owned path that has a path and a kind. -/
theorem ownedFields_iff {item : Dict} (hpath : item.has "path" = true)
    (hkind : item.has "kind" = true) :
    (hasExactly item ["path", "kind"] || hasExactly item ownedPathFields) = true ↔
      item.onlyHas ownedPathFields = true := by
  simp only [hasExactly, ownedPathFields, List.all_cons, List.all_nil, hpath, hkind, Bool.and_true,
    Bool.or_eq_true, Bool.and_eq_true, Dict.onlyHas_iff, true_and]
  constructor
  · rintro (hshort | ⟨hlong, -⟩) key hkey
    · have hmem := hshort key hkey
      simp only [List.mem_cons, List.not_mem_nil, or_false] at hmem ⊢
      tauto
    · exact hlong key hkey
  · intro h
    by_cases hident : item.has "identity" = true
    · exact .inr ⟨h, hident⟩
    · refine .inl fun key hkey => ?_
      have hmem := h key hkey
      simp only [List.mem_cons, List.not_mem_nil, or_false] at hmem ⊢
      rcases hmem with rfl | rfl | rfl
      · exact .inl rfl
      · exact .inr rfl
      · exact absurd (Dict.has_iff.2 hkey) hident

/-- **An entry both read.** -/
theorem coerceOwnedPath_iff_read {name : String} {item : Json} :
    coerceOwnedPath name item [] = .ok owned ↔
      readOwnedPath δ item = some owned ∧ exactEntry (name, item) = true := by
  rw [coerceOwnedPath_eq_ok, readOwnedPath_eq_some]
  simp only [exactEntry, Bool.and_eq_true, coerceOwnedIdentity_iff_read (δ := δ)]
  have hfields : ∀ {raw : Dict}, Dict.get raw "path" = .str owned.path →
      Dict.get raw "kind" = .str owned.kind.value →
      ((hasExactly raw ["path", "kind"] || hasExactly raw ownedPathFields) = true ↔
        raw.onlyHas ownedPathFields = true) := by
    intro raw hpath hkind
    exact ownedFields_iff (has_of_get (by rw [hpath]; simp)) (has_of_get (by rw [hkind]; simp))
  constructor
  · rintro ⟨hname, -, raw, rfl, hexact, hpath, hkind, hread, hident⟩
    exact ⟨⟨raw, rfl, (hfields hpath hkind).1 hexact, hpath, hkind, hread⟩, hname, hident⟩
  · rintro ⟨⟨raw, rfl, honly, hpath, hkind, hread⟩, hname, hident⟩
    exact ⟨hname, List.not_mem_nil, raw, rfl, (hfields hpath hkind).2 honly, hpath, hkind, hread,
      hident⟩

/-- The entries of a dictionary, read one by one. -/
theorem mapM_eq_some {α : Type} {read : Json → Option α} {entries : Dict}
    {found : List (String × α)} :
    entries.mapM (fun entry => (read entry.2).map fun a => (entry.1, a)) = some found ↔
      List.Forall₂ (fun entry b => b.1 = entry.1 ∧ read entry.2 = some b.2) entries found := by
  induction entries generalizing found with
  | nil =>
    rw [List.mapM_nil]
    constructor
    · rintro ⟨⟩
      exact .nil
    · rintro ⟨⟩
      rfl
  | cons entry entries ih =>
    simp only [List.mapM_cons, Option.bind_eq_bind, Option.bind_eq_some_iff,
      Option.map_eq_some_iff, Option.pure_def, Option.some.injEq]
    constructor
    · rintro ⟨_, ⟨a, ha, rfl⟩, rest, hrest, rfl⟩
      exact .cons ⟨rfl, ha⟩ (ih.1 hrest)
    · intro h
      rcases h with _ | ⟨⟨hkey, ha⟩, hrest⟩
      rename_i b rest
      obtain ⟨key, b⟩ := b
      obtain rfl : key = entry.1 := hkey
      exact ⟨_, ⟨b, ha, rfl⟩, rest, ih.2 hrest, rfl⟩

/-- **The owned paths both read.** -/
theorem coerceOwnedPaths_iff_read {owned : List (String × OwnedPath)} :
    coerceOwnedPaths value = .ok owned ↔
      (readEntries (readOwnedPath δ) value = some owned ∧
        (owned.map fun entry => entry.2.path).Nodup) ∧
      ∃ entries, value = .obj entries ∧ entries.length ≤ 128 ∧ entries.all exactEntry = true := by
  rw [coerceOwnedPaths_eq_ok]
  cases value with
  | obj entries =>
    simp only [readEntries, Json.obj?, Option.bind_some, mapM_eq_some, Json.obj.injEq,
      exists_eq_left']
    simp only [coerceOwnedPath_iff_read (δ := δ)]
    have hsplit : List.Forall₂ (fun (entry : String × Json) (found : String × OwnedPath) =>
        found.1 = entry.1 ∧ readOwnedPath δ entry.2 = some found.2 ∧
          exactEntry (entry.1, entry.2) = true) entries owned ↔
        entries.all exactEntry = true ∧
          List.Forall₂ (fun (entry : String × Json) (found : String × OwnedPath) =>
            found.1 = entry.1 ∧ readOwnedPath δ entry.2 = some found.2) entries owned := by
      rw [List.all_eq_true, ← List.forall₂_and_left]
      constructor
      · exact fun h => h.imp fun _ _ h => ⟨h.2.2, h.1, h.2.1⟩
      · exact fun h => h.imp fun _ _ h => ⟨h.2.1, h.2.2, h.1⟩
    rw [hsplit]
    tauto
  | _ => simp [readEntries, Json.obj?]

/-! ### Phases -/

theorem isIdentifier_iff :
    isIdentifier text = true ↔ isName text = true ∧ text.toList.length ≤ 160 := by
  have hempty : text ≠ "" ↔ 1 ≤ text.toList.length := by
    rw [Nat.one_le_iff_ne_zero, Ne, Ne, List.length_eq_zero_iff, String.toList_eq_nil_iff]
  simp only [isIdentifier, isName, Bool.and_eq_true, decide_eq_true_eq, hempty]
  tauto

theorem readTexts_eq_some {texts : List (String × String)} :
    readEntries Json.str? value = some texts ↔
      value = .obj (texts.map fun entry => (entry.1, .str entry.2)) := by
  cases value with
  | obj entries =>
    simp only [readEntries, Json.obj?, Option.bind_some, mapM_eq_some, str?_eq_some, Json.obj.injEq]
    induction entries generalizing texts with
    | nil => cases texts <;> simp
    | cons entry entries ih =>
      rcases texts with _ | ⟨_, texts⟩
      · simp
      · obtain ⟨_, value⟩ := entry
        simp only [List.forall₂_cons, ih, List.map_cons, List.cons.injEq, Prod.mk.injEq]
        tauto
  | _ => simp [readEntries, Json.obj?]

/-- What only `_coerce_phase_identities` asks: a phase, and names of at most 160 characters. -/
def exactPhases (entries : Dict) : Bool :=
  !entries.isEmpty && entries.all fun entry => decide (entry.1.toList.length ≤ 160)

/-- **The phases both read.** -/
theorem coercePhaseIdentities_iff_read {phases : List (String × String)} :
    coercePhaseIdentities value = .ok phases ↔
      (readEntries Json.str? value = some phases ∧
        phases.all (fun entry => isName entry.1 && isSha256 entry.2) = true) ∧
      ∃ entries, value = .obj entries ∧ exactPhases entries = true := by
  rw [coercePhaseIdentities_eq_ok, readTexts_eq_some]
  simp only [exactPhases, Bool.and_eq_true, isIdentifier_iff, List.all_eq_true, decide_eq_true_eq]
  constructor
  · rintro ⟨rfl, hne, hall⟩
    refine ⟨⟨rfl, fun phase hphase => ⟨(hall phase hphase).1.1, (hall phase hphase).2⟩⟩, _, rfl,
      by simpa using hne, ?_⟩
    rintro _ hmem
    obtain ⟨phase, hphase, rfl⟩ := List.mem_map.1 hmem
    exact (hall phase hphase).1.2
  · rintro ⟨⟨rfl, hall⟩, _, ⟨⟩, hne, hlengths⟩
    refine ⟨rfl, by simpa using hne, fun phase hphase => ?_⟩
    have hlen := hlengths _ (List.mem_map.2 ⟨phase, hphase, rfl⟩)
    exact ⟨⟨(hall phase hphase).1, hlen⟩, (hall phase hphase).2⟩

/-! ### What the model accepts -/

/-- **The journal pydantic reads**, field by field. -/
structure Reads (now : δ) (value : Dict) (journal : TransactionJournal δ) : Prop where
  known : value.onlyHas journalFields = true
  schema : passes value "schema_version" (fun found => found = .str bootstrapTransactionSchema)
  invocation : value.get "invocation_id" = .str journal.invocationId
  fingerprint : value.get "desired_fingerprint" = .str journal.desiredFingerprint
  mode : Dict.defaulted (readNamed TransactionMode.ofValue?) .relayOnly value "mode" =
    some journal.mode
  state : Dict.defaulted (readNamed TransactionState.ofValue?) .locked value "state" =
    some journal.state
  started : Dict.defaulted PydanticJson.datetime now value "started_at" = some journal.startedAt
  updated : Dict.defaulted PydanticJson.datetime now value "updated_at" = some journal.updatedAt
  previous : readOptional Json.str? (value.get "previous_generation") =
    some journal.previousGeneration
  prepared : readOptional Json.str? (value.get "prepared_generation") =
    some journal.preparedGeneration
  service : readOptional Json.str? (value.get "service_name") = some journal.serviceName
  active : readOptional (readBool δ) (value.get "service_was_active") =
    some journal.serviceWasActive
  enabled : readOptional (readBool δ) (value.get "service_was_enabled") =
    some journal.serviceWasEnabled
  recovered : readOptional (readNamed TransactionState.ofValue?) (value.get "recovered_from") =
    some journal.recoveredFrom
  boundary : Dict.defaulted (readBool δ) false value "irreversible_boundary" =
    some journal.irreversibleBoundary
  owned : Dict.defaulted (readEntries (readOwnedPath δ)) [] value "owned_paths" =
    some journal.ownedPaths
  phases : Dict.defaulted (readEntries Json.str?) [] value "phase_identities" =
    some journal.phaseIdentities
  valid : journal.validateGenerationState = true

theorem schema_read {value : Dict} {u : Unit} :
    Dict.defaulted (readNamed fun text =>
        if text = bootstrapTransactionSchema then some () else none) () value "schema_version" =
      some u ↔
    passes value "schema_version" (fun found => found = .str bootstrapTransactionSchema) = true := by
  unfold Dict.defaulted passes
  rcases value.lookup "schema_version" with _ | found
  · simp
  · cases found <;> simp [readNamed, Json.str?]

/-- `model_validate` returns a journal exactly if the document reads as that journal, field by
field. -/
theorem modelValidate_eq_some {value : Dict} :
    modelValidate now (.obj value) = some journal ↔ Reads now value journal := by
  have hstr : Json.str? .null = none := rfl
  rw [modelValidate, Json.obj?, Option.bind_some]
  constructor
  · intro h
    split_ifs at h with known
    obtain ⟨_, schema, h⟩ := Option.bind_eq_some_iff.1 h
    obtain ⟨_, invocation, h⟩ := Option.bind_eq_some_iff.1 h
    obtain ⟨_, fingerprint, h⟩ := Option.bind_eq_some_iff.1 h
    obtain ⟨_, mode, h⟩ := Option.bind_eq_some_iff.1 h
    obtain ⟨_, state, h⟩ := Option.bind_eq_some_iff.1 h
    obtain ⟨_, started, h⟩ := Option.bind_eq_some_iff.1 h
    obtain ⟨_, updated, h⟩ := Option.bind_eq_some_iff.1 h
    obtain ⟨_, previous, h⟩ := Option.bind_eq_some_iff.1 h
    obtain ⟨_, prepared, h⟩ := Option.bind_eq_some_iff.1 h
    obtain ⟨_, service, h⟩ := Option.bind_eq_some_iff.1 h
    obtain ⟨_, active, h⟩ := Option.bind_eq_some_iff.1 h
    obtain ⟨_, enabled, h⟩ := Option.bind_eq_some_iff.1 h
    obtain ⟨_, recovered, h⟩ := Option.bind_eq_some_iff.1 h
    obtain ⟨_, boundary, h⟩ := Option.bind_eq_some_iff.1 h
    obtain ⟨_, owned, h⟩ := Option.bind_eq_some_iff.1 h
    obtain ⟨_, phases, h⟩ := Option.bind_eq_some_iff.1 h
    obtain ⟨valid, hj⟩ := Option.ite_none_right_eq_some.1 h
    cases hj
    rw [required_eq hstr, str?_eq_some] at invocation fingerprint
    rw [defaulted_readOptional] at previous prepared service active enabled recovered
    exact ⟨known, schema_read.1 schema, invocation, fingerprint, mode, state, started, updated,
      previous, prepared, service, active, enabled, recovered, boundary, owned, phases, valid⟩
  · intro h
    have invocation := h.invocation
    have fingerprint := h.fingerprint
    rw [← str?_eq_some, ← required_eq hstr] at invocation fingerprint
    have previous := h.previous
    have prepared := h.prepared
    have service := h.service
    have active := h.active
    have enabled := h.enabled
    have recovered := h.recovered
    rw [← defaulted_readOptional] at previous prepared service active enabled recovered
    rw [if_pos h.known, schema_read (u := ()) |>.2 h.schema, invocation, fingerprint, h.mode,
      h.state, h.started, h.updated, previous, prepared, service, active, enabled, recovered,
      h.boundary, h.owned, h.phases]
    exact if_pos h.valid

/-! ### The rules -/

theorem mem_transactionModes :
    text ∈ transactionModes ↔ ∃ mode : TransactionMode, text = mode.value := by
  constructor
  · intro h
    simp only [transactionModes, List.mem_cons, List.not_mem_nil, or_false] at h
    rcases h with rfl | rfl | rfl | rfl
    · exact ⟨.full, rfl⟩
    · exact ⟨.relayOnly, rfl⟩
    · exact ⟨.componentUpgrade, rfl⟩
    · exact ⟨.repair, rfl⟩
  · rintro ⟨mode, rfl⟩
    cases mode <;> decide

theorem knownStates_eq : knownStates = TransactionState.all.map TransactionState.value := rfl

theorem TransactionState.mem_all (state : TransactionState) : state ∈ TransactionState.all := by
  cases state <;> decide

theorem mem_knownStates : text ∈ knownStates ↔ ∃ state : TransactionState, text = state.value := by
  rw [knownStates_eq, List.mem_map]
  constructor
  · rintro ⟨state, -, rfl⟩
    exact ⟨state, rfl⟩
  · rintro ⟨state, rfl⟩
    exact ⟨state, state.mem_all, rfl⟩

theorem mem_preparedStates (state : TransactionState) :
    state.value ∈ preparedStates ↔ state.needsPrepared = true := by
  cases state <;> decide

theorem mem_boundaryStates (state : TransactionState) :
    state.value ∈ boundaryStates ↔ state.needsBoundary = true := by
  cases state <;> decide

theorem TransactionState.value_injective {other : TransactionState} (h : state.value = other.value) :
    state = other := by
  have hst := TransactionState.ofValue?_eq_some.2 h
  rw [TransactionState.ofValue?_eq_some.2 rfl] at hst
  exact Option.some.inj hst

/-- The rules both implementations have: the known fields, where a field that may be missing has
a default, and what the states from `prepared` and from `migration_started` on need. -/
structure SharedRules (δ : Type) [PydanticJson δ] (value : Dict) : Prop where
  known : value.onlyHas journalFields = true
  schema : passes value "schema_version" (fun found => found = .str bootstrapTransactionSchema)
  invocation : ∃ text, value.get "invocation_id" = .str text ∧ isName text = true
  fingerprint : ∃ text, value.get "desired_fingerprint" = .str text ∧ isSha256 text = true
  mode : passes value "mode" (fun found => (readNamed TransactionMode.ofValue? found).isSome)
  state : passes value "state" (fun found => (readNamed TransactionState.ofValue? found).isSome)
  prepared : (readOptional Json.str? (value.get "prepared_generation")).isSome
  active : (readOptional (readBool δ) (value.get "service_was_active")).isSome
  enabled : (readOptional (readBool δ) (value.get "service_was_enabled")).isSome
  recovered :
    (readOptional (readNamed TransactionState.ofValue?) (value.get "recovered_from")).isSome
  boundary : passes value "irreversible_boundary" (fun found => (readBool δ found).isSome)
  owned : passes value "owned_paths" (fun found =>
    (readEntries (readOwnedPath δ) found).any fun owned =>
      decide ((owned.map fun entry => entry.2.path).Nodup))
  phases : passes value "phase_identities" (fun found =>
    (readEntries Json.str? found).any fun phases =>
      phases.all fun entry => isName entry.1 && isSha256 entry.2)
  needsPrepared : ∀ state : TransactionState, value.get "state" = .str state.value →
    state.needsPrepared = true → ∃ text ≠ "", value.get "prepared_generation" = .str text
  needsBoundary : ∀ state : TransactionState, value.get "state" = .str state.value →
    state.needsBoundary = true → readBool δ (value.get "irreversible_boundary") = some true

/-- The rules of `_validate_journal` alone: every field is there, names have at most 160
characters, flags and numbers are written as such, a prepared generation is a digest, there are
at most 128 owned paths under proper names, and at least one phase. -/
structure StandardRules (value : Dict) : Prop where
  present : journalFields.all value.has = true
  invocation : ∀ text, value.get "invocation_id" = .str text → text.toList.length ≤ 160
  active : isOptionalBool (value.get "service_was_active") = true
  enabled : isOptionalBool (value.get "service_was_enabled") = true
  boundary : ∃ b, value.get "irreversible_boundary" = .bool b
  prepared : isOptionalText isSha256 (value.get "prepared_generation") = true
  owned : ∀ entries, value.get "owned_paths" = .obj entries →
    entries.length ≤ 128 ∧ entries.all exactEntry = true
  phases : ∀ entries, value.get "phase_identities" = .obj entries → exactPhases entries = true

/-- The rules of the model alone: the two times are times, the previous generation and the
service name are texts or `None`. -/
structure ActivationRules (δ : Type) [PydanticJson δ] (value : Dict) : Prop where
  started : passes value "started_at" (fun found => (PydanticJson.datetime (δ := δ) found).isSome)
  updated : passes value "updated_at" (fun found => (PydanticJson.datetime (δ := δ) found).isSome)
  previous : (readOptional Json.str? (value.get "previous_generation")).isSome
  service : (readOptional Json.str? (value.get "service_name")).isSome

theorem defaulted_any {α : Type} (read : Json → Option α) (default : α) {p : α → Bool}
    (hdefault : p default = true) (value : Dict) (field : String) :
    (∃ a, Dict.defaulted read default value field = some a ∧ p a = true) ↔
      passes value field (fun found => (read found).any p) = true := by
  unfold Dict.defaulted passes
  rcases value.lookup field with _ | found
  · simp [hdefault]
  · cases h : read found <;> simp [h]

/-- A value that is not the default was read from the document. -/
theorem get_of_defaulted {α : Type} {read : Json → Option α} {default a : α} {value : Dict}
    (h : Dict.defaulted read default value field = some a) (hne : a ≠ default) :
    read (value.get field) = some a := by
  unfold Dict.defaulted at h
  unfold Dict.get
  rcases hlook : value.lookup field with _ | _
  · rw [hlook] at h
    exact absurd (Option.some.inj h).symm hne
  · rw [hlook] at h
    exact h

theorem readNamed_state_eq_some :
    readNamed TransactionState.ofValue? value = some state ↔ value = .str state.value := by
  rw [readNamed_eq_some]
  constructor
  · rintro ⟨_, rfl, htext⟩
    rw [TransactionState.ofValue?_eq_some.1 htext]
  · rintro rfl
    exact ⟨_, rfl, TransactionState.ofValue?_eq_some.2 rfl⟩

/-- The state of the journal that is read is the one the document names. -/
theorem Reads.state_eq {value : Dict} (h : Reads now value journal)
    (hst : value.get "state" = .str state.value) : journal.state = state := by
  have hread := h.state
  rw [defaulted_of_has _ _ (has_of_get (by rw [hst]; simp)), hst] at hread
  exact TransactionState.value_injective (Json.str.inj (readNamed_state_eq_some.1 hread)).symm

/-- **What the model accepts.** -/
theorem modelValidate_iff_rules {value : Dict} :
    (∃ journal, modelValidate now (.obj value) = some journal) ↔
      SharedRules δ value ∧ ActivationRules δ value := by
  constructor
  · rintro ⟨journal, hread⟩
    have h := modelValidate_eq_some.1 hread
    have hval := TransactionStep.validate_iff.1 h.valid
    obtain ⟨⟨hfp, hinv, hown, hph⟩, hprep, hbdry⟩ := hval
    refine ⟨⟨h.known, h.schema, ⟨_, h.invocation, hinv⟩, ⟨_, h.fingerprint, hfp⟩,
      (defaulted_isSome _ _ _ _).1 ⟨_, h.mode⟩, (defaulted_isSome _ _ _ _).1 ⟨_, h.state⟩,
      Option.isSome_of_eq_some h.prepared, Option.isSome_of_eq_some h.active,
      Option.isSome_of_eq_some h.enabled, Option.isSome_of_eq_some h.recovered,
      (defaulted_isSome _ _ _ _).1 ⟨_, h.boundary⟩,
      (defaulted_any _ [] (by decide) _ _).1 ⟨_, h.owned, decide_eq_true hown⟩,
      (defaulted_any _ [] rfl _ _).1 ⟨_, h.phases, hph⟩, ?_, ?_⟩,
      ⟨(defaulted_isSome _ _ _ _).1 ⟨_, h.started⟩, (defaulted_isSome _ _ _ _).1 ⟨_, h.updated⟩,
      Option.isSome_of_eq_some h.previous, Option.isSome_of_eq_some h.service⟩⟩
    · rintro state hst hneeds
      obtain rfl := h.state_eq hst
      have hgen := readOptional_str?.1 h.prepared
      rcases htext : journal.preparedGeneration with _ | text
      · exact absurd (by rw [htext]; rfl) (hprep hneeds)
      · rw [htext] at hgen hprep
        exact ⟨text, hprep hneeds, hgen⟩
    · rintro state hst hneeds
      obtain rfl := h.state_eq hst
      have hcross := hbdry hneeds
      rw [← hcross]
      exact get_of_defaulted h.boundary (by rw [hcross]; decide)
  · rintro ⟨h, h'⟩
    obtain ⟨invocation, hinv, hname⟩ := h.invocation
    obtain ⟨fingerprint, hfp, hdig⟩ := h.fingerprint
    obtain ⟨mode, hmode⟩ := (defaulted_isSome _ .relayOnly _ _).2 h.mode
    obtain ⟨state, hst⟩ := (defaulted_isSome _ .locked _ _).2 h.state
    obtain ⟨started, hstart⟩ := (defaulted_isSome _ now _ _).2 h'.started
    obtain ⟨updated, hupd⟩ := (defaulted_isSome _ now _ _).2 h'.updated
    obtain ⟨previous, hprev⟩ := Option.isSome_iff_exists.1 h'.previous
    obtain ⟨prepared, hprep⟩ := Option.isSome_iff_exists.1 h.prepared
    obtain ⟨service, hservice⟩ := Option.isSome_iff_exists.1 h'.service
    obtain ⟨active, hactive⟩ := Option.isSome_iff_exists.1 h.active
    obtain ⟨enabled, hen⟩ := Option.isSome_iff_exists.1 h.enabled
    obtain ⟨recovered, hrecov⟩ := Option.isSome_iff_exists.1 h.recovered
    obtain ⟨boundary, hbdry⟩ := (defaulted_isSome _ false _ _).2 h.boundary
    obtain ⟨owned, hown, hnd⟩ := (defaulted_any _ [] (by decide) _ _).2 h.owned
    obtain ⟨phases, hph, hall⟩ := (defaulted_any _ [] rfl _ _).2 h.phases
    have hnamed : state ≠ .locked → value.get "state" = .str state.value := fun hne =>
      readNamed_state_eq_some.1 (get_of_defaulted hst hne)
    refine ⟨⟨invocation, fingerprint, mode, state, started, updated, previous, prepared, service,
      active, enabled, recovered, boundary, owned, phases⟩, modelValidate_eq_some.2
      ⟨h.known, h.schema, hinv, hfp, hmode, hst, hstart, hupd, hprev,
        hprep, hservice, hactive, hen, hrecov, hbdry, hown, hph, ?_⟩⟩
    refine TransactionStep.validate_iff.2
      ⟨⟨hdig, hname, of_decide_eq_true hnd, hall⟩, fun hneeds => ?_, fun hneeds => ?_⟩
    · have hne : state ≠ .locked := by
        rintro rfl
        cases hneeds
      obtain ⟨text, htext, hget⟩ := h.needsPrepared state (hnamed hne) hneeds
      rw [hget] at hprep
      cases hprep
      exact htext
    · have hne : state ≠ .locked := by
        rintro rfl
        cases hneeds
      have hcross := h.needsBoundary state (hnamed hne) hneeds
      have hhas : value.has "irreversible_boundary" = true := by
        refine has_of_get fun hnull => ?_
        rw [hnull] at hcross
        cases hcross
      rw [defaulted_of_has _ _ hhas, hcross] at hbdry
      exact (Option.some.inj hbdry).symm

theorem isOptionalBool_read (h : isOptionalBool value = true) :
    (readOptional (readBool δ) value).isSome = true := by
  cases value <;> simp_all [isOptionalBool, readOptional, readBool]

theorem isOptionalText_read {accepts : String → Bool} (h : isOptionalText accepts value = true) :
    (readOptional Json.str? value).isSome = true := by
  cases value <;> simp_all [isOptionalText, readOptional, Json.str?]

theorem isSha256_ne_empty (h : isSha256 text = true) : text ≠ "" := by
  rintro rfl
  revert h
  decide

/-- **What `_validate_journal` accepts.** -/
theorem valid_iff_rules {value : Dict} :
    Journal.Valid value ↔ SharedRules δ value ∧ StandardRules value := by
  constructor
  · intro h
    obtain ⟨honly, hall⟩ := (Bool.and_eq_true _ _).mp h.fields
    have hhas : ∀ field ∈ journalFields, value.has field = true := List.all_eq_true.1 hall
    obtain ⟨invocation, hinv, hname⟩ := h.invocation
    obtain ⟨mode, hmode, hgetMode⟩ := h.mode
    obtain ⟨mode, rfl⟩ := mem_transactionModes.1 hmode
    obtain ⟨state, hst, hgetState⟩ := h.state
    obtain ⟨state, rfl⟩ := mem_knownStates.1 hst
    obtain ⟨boundary, hbdry⟩ := h.boundary
    obtain ⟨owned, hown⟩ := h.owned
    obtain ⟨⟨hreadOwned, hnd⟩, _, hownedEntries, hcnt, hexact⟩ :=
      (coerceOwnedPaths_iff_read (δ := δ)).1 hown
    obtain ⟨phases, hph⟩ := h.phases
    obtain ⟨⟨hreadPhases, hallPhases⟩, _, hphaseEntries, hexactPhases⟩ :=
      coercePhaseIdentities_iff_read.1 hph
    refine ⟨⟨honly, ?_, ⟨_, hinv, (isIdentifier_iff.1 hname).1⟩, h.fingerprint, ?_, ?_,
      isOptionalText_read h.prepared, isOptionalBool_read h.active, isOptionalBool_read h.enabled,
      ?_, ?_, ?_, ?_, ?_, ?_⟩, ⟨hall, ?_, h.active, h.enabled, h.boundary, h.prepared, ?_, ?_⟩⟩
    · rw [passes_of_has (hhas _ (by decide)), h.schema]
      exact decide_eq_true rfl
    · rw [passes_of_has (hhas _ (by decide)), hgetMode]
      exact Option.isSome_of_eq_some (TransactionMode.ofValue?_eq_some.2 rfl)
    · rw [passes_of_has (hhas _ (by decide)), hgetState]
      exact Option.isSome_of_eq_some (TransactionState.ofValue?_eq_some.2 rfl)
    · rcases h.recovered with hnull | ⟨text, htext, hget⟩
      · rw [hnull]
        rfl
      · obtain ⟨other, rfl⟩ := mem_knownStates.1 htext
        rw [hget]
        simp [readOptional, readNamed, Json.str?, TransactionState.ofValue?_eq_some.2 rfl]
    · rw [passes_of_has (hhas _ (by decide)), hbdry]
      rfl
    · rw [passes_of_has (hhas _ (by decide)), hreadOwned]
      exact decide_eq_true hnd
    · rw [passes_of_has (hhas _ (by decide)), hreadPhases]
      exact hallPhases
    · intro other hother hneeds
      have hne := h.needsPrepared other.value ((mem_preparedStates other).2 hneeds) hother
      have htext := h.prepared
      rcases hv : value.get "prepared_generation" with _ | _ | _ | text | _ | _
      all_goals rw [hv] at hne htext
      case str => exact ⟨text, isSha256_ne_empty htext, rfl⟩
      case null => exact absurd rfl hne
      all_goals cases htext
    · intro other hother hneeds
      rw [h.needsBoundary other.value ((mem_boundaryStates other).2 hneeds) hother]
      rfl
    · intro text htext
      rw [hinv] at htext
      cases htext
      exact (isIdentifier_iff.1 hname).2
    · intro entries hents
      rw [hownedEntries] at hents
      cases hents
      exact ⟨hcnt, hexact⟩
    · intro entries hents
      rw [hphaseEntries] at hents
      cases hents
      exact hexactPhases
  · rintro ⟨h, h'⟩
    have hhas : ∀ field ∈ journalFields, value.has field = true := List.all_eq_true.1 h'.present
    obtain ⟨invocation, hinv, hname⟩ := h.invocation
    have hsch := h.schema
    have hmode := h.mode
    have hst := h.state
    have hown := h.owned
    have hph := h.phases
    rw [passes_of_has (hhas _ (by decide))] at hsch hmode hst hown hph
    obtain ⟨mode, hmode⟩ := Option.isSome_iff_exists.1 hmode
    obtain ⟨modeText, hgetMode, hmodeText⟩ := readNamed_eq_some.1 hmode
    obtain ⟨state, hst⟩ := Option.isSome_iff_exists.1 hst
    have hgetState := readNamed_state_eq_some.1 hst
    obtain ⟨owned, hreadOwned, hnd⟩ := (Option.any_eq_true _ _).1 hown
    obtain ⟨phases, hreadPhases, hallPhases⟩ := (Option.any_eq_true _ _).1 hph
    have hnamed : ∀ {text}, value.get "state" = .str text → text = state.value := by
      intro text htext
      rw [hgetState] at htext
      exact (Json.str.inj htext).symm
    refine ⟨by rw [hasExactly, h.known, h'.present]; rfl, of_decide_eq_true hsch,
      ⟨_, hinv, isIdentifier_iff.2 ⟨hname, h'.invocation _ hinv⟩⟩, h.fingerprint,
      ⟨modeText, mem_transactionModes.2 ⟨mode, TransactionMode.ofValue?_eq_some.1 hmodeText⟩,
        hgetMode⟩, ⟨_, mem_knownStates.2 ⟨state, rfl⟩, hgetState⟩, ?_, h'.active, h'.enabled,
      h'.boundary, h'.prepared, ?_, ?_, ⟨owned, ?_⟩, ⟨phases, ?_⟩⟩
    · obtain ⟨recoveredFrom, hrecov⟩ := Option.isSome_iff_exists.1 h.recovered
      by_cases hnull : value.get "recovered_from" = .null
      · exact .inl hnull
      · refine .inr ?_
        have hread : (readNamed TransactionState.ofValue? (value.get "recovered_from")).map some =
            some recoveredFrom := by
          rw [← hrecov]
          cases hv : value.get "recovered_from" <;> simp_all [readOptional]
        obtain ⟨other, hother, -⟩ := Option.map_eq_some_iff.1 hread
        exact ⟨_, mem_knownStates.2 ⟨other, rfl⟩, readNamed_state_eq_some.1 hother⟩
    · intro text hmem htext
      obtain rfl := hnamed htext
      obtain ⟨_, -, hget⟩ := h.needsPrepared state htext ((mem_preparedStates _).1 hmem)
      rw [hget]
      simp
    · intro text hmem htext
      obtain rfl := hnamed htext
      have hcross := h.needsBoundary state htext ((mem_boundaryStates _).1 hmem)
      obtain ⟨b, hb⟩ := h'.boundary
      rw [hb] at hcross ⊢
      rw [Option.some.inj hcross]
    · obtain ⟨entries, hents⟩ : ∃ entries, value.get "owned_paths" = .obj entries := by
        cases hv : value.get "owned_paths" <;> simp_all [readEntries, Json.obj?]
      obtain ⟨hcnt, hexact⟩ := h'.owned entries hents
      exact (coerceOwnedPaths_iff_read (δ := δ)).2
        ⟨⟨hreadOwned, of_decide_eq_true hnd⟩, entries, hents, hcnt, hexact⟩
    · have hents := readTexts_eq_some.1 hreadPhases
      exact coercePhaseIdentities_iff_read.2
        ⟨⟨hreadPhases, hallPhases⟩, _, hents, h'.phases _ hents⟩

end ClioQueue.Bootstrap
