/-
# What an edit keeps of a journal

`Journal.Sound` is the invariant of the document on disk: it is valid and no key stands twice in
it.  Writing sorts the keys; the sorted document is valid again and reads as the same owned paths
and phases, up to their order (`Journal.Sound.sorted`).  `Evolves` says what no edit takes back:
the irreversible boundary, a terminal state, a recorded phase and a recorded identity of an owned
path.  Each edit of `bootstrap_journal.py` leads from a sound document to a sound one that has
evolved from it.
-/

import ClioQueue.Bootstrap.JournalValidation
import ClioQueue.Bootstrap.OwnedPaths
import Mathlib.Data.List.Forall2
import Mathlib.Data.List.Perm.Basic

namespace ClioQueue.Bootstrap

variable {value' : Dict} {value : Json} {owned : List (String × OwnedPath)}

open Durable

/-! ### Reading a sorted document -/

theorem hasExactly_sortFields (d : Dict) (names : List String) :
    hasExactly (Json.sortFields d) names = hasExactly d names := by
  have hhas : Dict.has (Json.sortFields d) = d.has := funext (Dict.has_sortFields d)
  unfold hasExactly
  rw [Dict.onlyHas_sortFields, hhas]

theorem isLeaf_optionalText (text : Option String) : (optionalText text).isLeaf = true := by
  cases text <;> rfl

theorem OwnedPathIdentity.toDict_leaf (identity : OwnedPathIdentity) :
    ∀ e ∈ identity.toDict, e.2.isLeaf = true := by
  simp only [OwnedPathIdentity.toDict, List.forall_mem_cons, isLeaf_optionalText, true_and]
  exact ⟨rfl, rfl, rfl, rfl, rfl, List.forall_mem_nil _⟩

theorem OwnedPathIdentity.distinct_toDict (identity : OwnedPathIdentity) :
    Json.Distinct (.obj identity.toDict) :=
  Json.distinct_obj_of_isLeaf (by simp [OwnedPathIdentity.toDict])
    (List.all_eq_true.2 identity.toDict_leaf)

theorem OwnedPath.distinct_toDict (owned : OwnedPath) : Json.Distinct (.obj owned.toDict) := by
  refine Json.distinct_obj.2 ⟨by simp [OwnedPath.toDict], ?_⟩
  have hident : Json.Distinct (identityJson owned.identity) := by
    rcases owned.identity with _ | identity
    · trivial
    · exact identity.distinct_toDict
  simp only [OwnedPath.toDict, List.forall_mem_cons, hident, Json.Distinct, List.not_mem_nil,
    false_implies, implies_true, and_self]

theorem coerceOwnedIdentity_sortKeys (hv : value.Distinct) {identity : Option OwnedPathIdentity}
    (h : coerceOwnedIdentity value = .ok identity) :
    coerceOwnedIdentity value.sortKeys = .ok identity := by
  rcases identity with _ | identity
  · rw [coerceOwnedIdentity_eq_none] at h ⊢
    rw [h, Json.sortKeys]
  · obtain ⟨_, rfl, hfields, hdict, hclean⟩ := coerceOwnedIdentity_eq_some.1 h
    rw [Json.sortKeys]
    refine coerceOwnedIdentity_eq_some.2 ⟨_, rfl, ?_, fun e he => ?_, hclean⟩
    · rw [hasExactly_sortFields, hfields]
    · rw [Dict.get_sortFields hv.1, hdict e he, Json.sortKeys_of_isLeaf (identity.toDict_leaf e he)]

theorem coerceOwnedPath_sortKeys {name : String} {rawItem : Json} (hraw : rawItem.Distinct)
    {owned : OwnedPath} (h : coerceOwnedPath name rawItem [] = .ok owned) :
    coerceOwnedPath name rawItem.sortKeys [] = .ok owned := by
  obtain ⟨hname, hfresh, _, rfl, hfields, hpath, hkind, hident⟩ := coerceOwnedPath_eq_ok.1 h
  rw [Json.sortKeys]
  refine coerceOwnedPath_eq_ok.2 ⟨hname, hfresh, _, rfl, ?_, ?_, ?_, ?_⟩
  · rw [hasExactly_sortFields, hasExactly_sortFields, hfields]
  · rw [Dict.get_sortFields hraw.1, hpath, Json.sortKeys]
  · rw [Dict.get_sortFields hraw.1, hkind, Json.sortKeys]
  · rw [Dict.get_sortFields hraw.1]
    exact coerceOwnedIdentity_sortKeys (Json.Distinct.get hraw _) hident

/-- **Sorted owned paths** are the owned paths in another order. -/
theorem coerceOwnedPaths_sortKeys (hv : value.Distinct) (h : coerceOwnedPaths value = .ok owned) :
    ∃ sorted, coerceOwnedPaths value.sortKeys = .ok sorted ∧ sorted.Perm owned := by
  obtain ⟨entries, rfl, hlen, hall, hnd⟩ := coerceOwnedPaths_eq_ok.1 h
  have hdist := (Json.distinct_obj.1 hv).2
  have hsort : List.Forall₂ (fun entry found => found.1 = entry.1 ∧
      coerceOwnedPath entry.1 entry.2 [] = .ok found.2)
      (entries.map fun e => (e.1, Json.sortKeys e.2)) owned := by
    rw [List.forall₂_map_left_iff]
    refine (List.forall₂_and_left _ _ |>.2 ⟨hdist, hall⟩).imp ?_
    rintro entry found ⟨hent, hname, hpath⟩
    exact ⟨hname, coerceOwnedPath_sortKeys hent hpath⟩
  obtain ⟨sorted, hforall, hperm⟩ :=
    List.perm_comp_forall₂ (Json.sortFields_perm entries) hsort
  refine ⟨sorted, ?_, hperm⟩
  rw [Json.sortKeys]
  refine coerceOwnedPaths_eq_ok.2 ⟨_, rfl, ?_, hforall, ?_⟩
  · rw [(Json.sortFields_perm entries).length_eq, List.length_map]
    exact hlen
  · exact (hperm.map _).nodup_iff.2 hnd

/-- **Sorted phases** are the phases in another order. -/
theorem coercePhaseIdentities_sortKeys {phases : List (String × String)}
    (h : coercePhaseIdentities value = .ok phases) :
    ∃ sorted, coercePhaseIdentities value.sortKeys = .ok sorted ∧ sorted.Perm phases := by
  obtain ⟨rfl, hne, hall⟩ := coercePhaseIdentities_eq_ok.1 h
  obtain ⟨sorted, hperm, hsort⟩ := Json.sortFields_map phases Json.str
  refine ⟨sorted, ?_, hperm⟩
  rw [Json.sortKeys, hsort]
  simp only [Json.sortKeys]
  refine coercePhaseIdentities_eq_ok.2 ⟨rfl, ?_, fun phase hphase => ?_⟩
  · rintro rfl
    exact hne hperm.symm.eq_nil
  · exact hall phase (hperm.mem_iff.1 hphase)

theorem isLeaf_of_isOptionalBool (h : isOptionalBool value = true) : value.isLeaf = true := by
  cases value with
  | arr => cases h
  | obj => cases h
  | _ => rfl

theorem isLeaf_of_isOptionalText {accepts : String → Bool} (h : isOptionalText accepts value = true) :
    value.isLeaf = true := by
  cases value with
  | arr => cases h
  | obj => cases h
  | _ => rfl

/-- A valid document without a key twice: what stands on the disk. -/
structure Journal.Sound (value : Dict) : Prop where
  valid : Journal.Valid value
  distinct : Json.Distinct (.obj value)

namespace Journal.Sound

variable {value : Dict}

theorem get_sorted (h : Journal.Sound value) {key : String} {found : Json}
    (hget : value.get key = found) (hleaf : found.isLeaf = true) :
    Dict.get (Json.sortFields value) key = found := by
  rw [Dict.get_sortFields h.distinct.1, hget, Json.sortKeys_of_isLeaf hleaf]

/-- **A sound document is sound with sorted keys.** -/
theorem sorted (h : Journal.Sound value) : Journal.Sound (Json.sortFields value) := by
  obtain ⟨hval, hdist⟩ := h
  have hsound : Journal.Sound value := ⟨hval, hdist⟩
  have hsort : Json.Distinct (.obj (Json.sortFields value)) := by
    have hkeys := hdist.sortKeys
    rwa [Json.sortKeys] at hkeys
  obtain ⟨invocation, hinv, hinv'⟩ := hval.invocation
  obtain ⟨fingerprint, hfp, hfp'⟩ := hval.fingerprint
  obtain ⟨mode, hmode, hmode'⟩ := hval.mode
  obtain ⟨state, hst, hst'⟩ := hval.state
  obtain ⟨boundary, hbdry⟩ := hval.boundary
  obtain ⟨owned, hown⟩ := hval.owned
  obtain ⟨phases, hph⟩ := hval.phases
  have hgetState := hsound.get_sorted hst' rfl
  have hgetPrepared := hsound.get_sorted rfl (isLeaf_of_isOptionalText hval.prepared)
  have hgetBoundary := hsound.get_sorted hbdry rfl
  have hsame : ∀ text, Dict.get (Json.sortFields value) "state" = .str text →
      value.get "state" = .str text := by
    intro text htext
    rw [hgetState] at htext
    rw [hst', htext]
  refine ⟨{
    fields := (hasExactly_sortFields value _).trans hval.fields
    schema := hsound.get_sorted hval.schema rfl
    invocation := ⟨_, hsound.get_sorted hinv rfl, hinv'⟩
    fingerprint := ⟨_, hsound.get_sorted hfp rfl, hfp'⟩
    mode := ⟨mode, hmode, hsound.get_sorted hmode' rfl⟩
    state := ⟨state, hst, hgetState⟩
    recovered := ?_
    active := ?_
    enabled := ?_
    boundary := ⟨boundary, hgetBoundary⟩
    prepared := ?_
    needsPrepared := ?_
    needsBoundary := ?_
    owned := ?_
    phases := ?_ }, hsort⟩
  · rcases hval.recovered with hnone | ⟨text, htext, hrecov⟩
    · exact .inl (hsound.get_sorted hnone rfl)
    · exact .inr ⟨text, htext, hsound.get_sorted hrecov rfl⟩
  · rw [hsound.get_sorted rfl (isLeaf_of_isOptionalBool hval.active)]
    exact hval.active
  · rw [hsound.get_sorted rfl (isLeaf_of_isOptionalBool hval.enabled)]
    exact hval.enabled
  · rw [hgetPrepared]
    exact hval.prepared
  · intro text hmem htext
    rw [hgetPrepared]
    exact hval.needsPrepared text hmem (hsame text htext)
  · intro text hmem htext
    rw [hgetBoundary, ← hbdry]
    exact hval.needsBoundary text hmem (hsame text htext)
  · obtain ⟨sorted, hcoerced, -⟩ := coerceOwnedPaths_sortKeys (hdist.get _) hown
    rw [Dict.get_sortFields hdist.1]
    exact ⟨sorted, hcoerced⟩
  · obtain ⟨sorted, hcoerced, -⟩ := coercePhaseIdentities_sortKeys hph
    rw [Dict.get_sortFields hdist.1]
    exact ⟨sorted, hcoerced⟩

end Journal.Sound

/-! ### What is kept -/

/-- The boundary, the recorded phases and the owned paths with their recorded identities are
kept. -/
structure Keeps (value value' : Dict) : Prop where
  boundary : value.get "irreversible_boundary" = .bool true →
    value'.get "irreversible_boundary" = .bool true
  phases : ∀ phases, coercePhaseIdentities (value.get "phase_identities") = .ok phases →
    ∃ phases', coercePhaseIdentities (value'.get "phase_identities") = .ok phases' ∧
      ∀ phase identity, phases.lookup phase = some identity → phases'.lookup phase = some identity
  owned : ∀ owned, coerceOwnedPaths (value.get "owned_paths") = .ok owned →
    ∃ owned', coerceOwnedPaths (value'.get "owned_paths") = .ok owned' ∧
      ∀ name item, owned.lookup name = some item →
        ∃ item', owned'.lookup name = some item' ∧ item'.path = item.path ∧
          item'.kind = item.kind ∧ (item.identity.isSome = true → item'.identity = item.identity)

theorem Keeps.trans {value value'' : Dict} (h : Keeps value value') (h' : Keeps value' value'') :
    Keeps value value'' := by
  refine ⟨fun hbdry => h'.boundary (h.boundary hbdry), fun phases hph => ?_, fun owned hown => ?_⟩
  · obtain ⟨phases', hph', hkept⟩ := h.phases phases hph
    obtain ⟨phases'', hph'', hkept'⟩ := h'.phases phases' hph'
    exact ⟨phases'', hph'', fun phase identity hphase =>
      hkept' phase identity (hkept phase identity hphase)⟩
  · obtain ⟨owned', hown', hkept⟩ := h.owned owned hown
    obtain ⟨owned'', hown'', hkept'⟩ := h'.owned owned' hown'
    refine ⟨owned'', hown'', fun name item hitem => ?_⟩
    obtain ⟨item', hitem', hpath, hkind, hident⟩ := hkept name item hitem
    obtain ⟨item'', hitem'', hpath', hkind', hident'⟩ := hkept' name item' hitem'
    refine ⟨item'', hitem'', hpath'.trans hpath, hkind'.trans hkind, fun hsome => ?_⟩
    have hmid := hident hsome
    rw [← hmid] at hsome
    exact (hident' hsome).trans hmid

/-- What does not touch the phases and the owned paths keeps them. -/
theorem Keeps.of_get {value : Dict}
    (hbdry : value.get "irreversible_boundary" = .bool true → value'.get "irreversible_boundary" = .bool true)
    (hph : value'.get "phase_identities" = value.get "phase_identities")
    (hown : value'.get "owned_paths" = value.get "owned_paths") : Keeps value value' := by
  refine ⟨hbdry, fun phases h => ⟨phases, hph ▸ h, fun _ _ h => h⟩,
    fun owned h => ⟨owned, hown ▸ h, fun name item hitem => ?_⟩⟩
  exact ⟨item, hitem, rfl, rfl, fun _ => rfl⟩

theorem Keeps.refl (value : Dict) : Keeps value value := .of_get id rfl rfl

/-- The names of coerced owned paths are those of the document. -/
theorem map_fst_coerced {entries : Dict} (h : coerceOwnedPaths (.obj entries) = .ok owned) :
    owned.map Prod.fst = entries.map Prod.fst := by
  obtain ⟨_, ⟨⟩, -, hall, -⟩ := coerceOwnedPaths_eq_ok.1 h
  clear h
  induction hall with
  | nil => rfl
  | cons hent _ ih => rw [List.map_cons, List.map_cons, hent.1, ih]

/-- **Writing keeps.** -/
theorem Journal.Sound.keeps_sorted {value : Dict} (h : Journal.Sound value) :
    Keeps value (Json.sortFields value) := by
  obtain ⟨boundary, _⟩ := h.valid.boundary
  refine ⟨fun htrue => h.get_sorted htrue rfl, fun phases hph => ?_, fun owned hown => ?_⟩
  · obtain ⟨sorted, hsort, hperm⟩ := coercePhaseIdentities_sortKeys hph
    refine ⟨sorted, by rw [Dict.get_sortFields h.distinct.1]; exact hsort, ?_⟩
    intro _ _ hphase
    have hnd : (phases.map Prod.fst).Nodup := by
      have hdist := (h.distinct.get "phase_identities")
      rw [(coercePhaseIdentities_eq_ok.1 hph).1] at hdist
      have hkeys := hdist.1
      rwa [List.map_map] at hkeys
    rw [Dict.lookup_perm hnd hperm, hphase]
  · obtain ⟨sorted, hsort, hperm⟩ := coerceOwnedPaths_sortKeys (h.distinct.get _) hown
    refine ⟨sorted, by rw [Dict.get_sortFields h.distinct.1]; exact hsort, ?_⟩
    intro name item hitem
    have hnd : (owned.map Prod.fst).Nodup := by
      have hdist := (h.distinct.get "owned_paths")
      obtain ⟨_, hents, -⟩ := coerceOwnedPaths_eq_ok.1 hown
      rw [hents] at hdist hown
      rw [map_fst_coerced hown]
      exact hdist.1
    exact ⟨item, (Dict.lookup_perm hnd hperm name).trans hitem, rfl, rfl, fun _ => rfl⟩

/-! ### The edits -/

/-- Whether a journal is terminal. -/
def Terminal (value : Dict) : Prop := ∃ state ∈ terminalStates, value.get "state" = .str state

/-- **An edit**: of a journal that is not terminal, to a sound one that keeps what was recorded. -/
structure Edits (value value' : Dict) : Prop where
  open_ : ¬ Terminal value
  sound : Journal.Sound value'
  keeps : Keeps value value'

theorem not_terminal_of_string {value : Dict} {state : String}
    (hst : value.get "state" = .str state) (h : (!terminalStates.contains state) = true) :
    ¬ Terminal value := by
  rintro ⟨_, hmem, htext⟩
  rw [hst] at htext
  cases htext
  rw [List.contains_iff_mem.2 hmem] at h
  cases h

section

variable {value value' : Dict}
  {observed : Dict} {owned : List (String × OwnedPath)} {generation : Option String}
  {fileType : OwnedFileType} {item item' : OwnedPath} {identity : OwnedPathIdentity}
  {name now state : String}

theorem transitions_terminal {target : String} (hst : state ∈ terminalStates) :
    ((transitions.lookup state).getD []).contains target = false := by
  simp only [terminalStates, List.mem_cons, List.not_mem_nil, or_false] at hst
  rcases hst with rfl | rfl <;> rfl

theorem assignPrepared_get (h : assignPrepared value state generation = .ok value') :
    (∀ field, field ≠ "prepared_generation" → value'.get field = value.get field) ∧
      (Json.Distinct (.obj value) → Json.Distinct (.obj value')) := by
  unfold assignPrepared at h
  split at h
  · split_ifs at h
    cases h
    refine ⟨fun field hfield => ?_, fun hdist => hdist.set _ (by trivial)⟩
    rw [Dict.get_set, if_neg hfield]
  · cases h
  · cases h
  · cases h
    exact ⟨fun _ _ => rfl, id⟩

/-- **`advance_journal` edits.** -/
theorem advanceValue_edits (hsound : Journal.Sound value)
    (h : advanceValue value state generation now = .ok value') : Edits value value' := by
  unfold advanceValue at h
  simp only [bind_eq_ok, string_eq_ok, ensure_eq_ok, exists_const] at h
  obtain ⟨_, hcur, hstep, prepared, hprep, _, hval, hv⟩ := h
  obtain rfl := Except.ok.inj hv
  obtain ⟨hget, hdist⟩ := assignPrepared_get hprep
  set moved := if state = "migration_started" then
    (prepared.set "state" (.str state)).set "irreversible_boundary" (.bool true)
    else prepared.set "state" (.str state) with hmoved
  have hkept : ∀ field, field ≠ "prepared_generation" → field ≠ "state" → field ≠ "updated_at" →
      field ≠ "irreversible_boundary" → (moved.set "updated_at" (.str now)).get field =
        value.get field := by
    intro field hfield hst htime hbdry
    rw [Dict.get_set, if_neg htime, hmoved, ← hget field hfield]
    split_ifs
    · rw [Dict.get_set, if_neg hbdry, Dict.get_set, if_neg hst]
    · rw [Dict.get_set, if_neg hst]
  refine ⟨?_, ⟨validateJournal_ok_iff.1 hval, ?_⟩, .of_get (fun hbdry => ?_)
    (hkept _ (by decide) (by decide) (by decide) (by decide))
    (hkept _ (by decide) (by decide) (by decide) (by decide))⟩
  · rintro ⟨_, hmem, htext⟩
    rw [hcur] at htext
    cases htext
    rw [transitions_terminal hmem] at hstep
    cases hstep
  · refine Json.Distinct.set ?_ _ trivial
    rw [hmoved]
    split_ifs
    · exact ((hdist hsound.distinct).set _ (by trivial)).set _ trivial
    · exact (hdist hsound.distinct).set _ trivial
  · rw [Dict.get_set, if_neg (by decide), hmoved]
    split_ifs
    · rw [Dict.get_set, if_pos rfl]
    · rw [Dict.get_set, if_neg (by decide), hget _ (by decide), hbdry]

/-- **`record_phase` edits**: a phase that is recorded again has its identity. -/
theorem recordPhaseValue_edits (hsound : Journal.Sound value) {phase identity : String}
    (h : recordPhaseValue value phase identity now = .ok value') : Edits value value' := by
  unfold recordPhaseValue at h
  simp only [bind_eq_ok, string_eq_ok, ensure_eq_ok, exists_const] at h
  obtain ⟨_, hst, hopen, phases, hph, hsame, _, hval, hv⟩ := h
  obtain rfl := Except.ok.inj hv
  have hval' := validateJournal_ok_iff.1 hval
  have hobj := (coercePhaseIdentities_eq_ok.1 hph).1
  have hents : Json.Distinct (.obj (phases.map fun entry => (entry.1, Json.str entry.2))) := by
    rw [← hobj]
    exact hsound.distinct.get _
  set entries : Dict := phases.map fun entry => (entry.1, Json.str entry.2) with hentriesDef
  have hget : ∀ field, field ≠ "updated_at" → ((value.set "phase_identities"
      (.obj (entries.set phase (.str identity)))).set "updated_at" (.str now)).get field =
      if field = "phase_identities" then .obj (entries.set phase (.str identity))
      else value.get field := by
    intro field hfield
    rw [Dict.get_set, if_neg hfield, Dict.get_set]
  refine ⟨not_terminal_of_string hst hopen, ⟨hval', ?_⟩, ?_⟩
  · exact (hsound.distinct.set _ (hents.set _ (by trivial))).set _ trivial
  refine ⟨fun hbdry => ?_, fun phases' hph' => ?_, fun owned hown => ?_⟩
  · rw [hget _ (by decide), if_neg (by decide), hbdry]
  · rw [hph] at hph'
    cases hph'
    obtain ⟨next, hnext⟩ := hval'.phases
    refine ⟨next, hnext, fun other found hother => ?_⟩
    rw [hget _ (by decide), if_pos rfl, coercePhaseIdentities_eq_ok, Json.obj.injEq] at hnext
    have hlook : (next.lookup other).map Json.str = some (.str found) := by
      rw [← Dict.lookup_map, ← hnext.1, Dict.lookup_set]
      split_ifs with hphase
      · rw [hphase] at hother
        rw [hother] at hsame
        rw [beq_iff_eq.1 hsame]
      · rw [hentriesDef, Dict.lookup_map, hother, Option.map_some]
    obtain ⟨_, hfound, heq⟩ := Option.map_eq_some_iff.1 hlook
    cases heq
    exact hfound
  · rw [hget _ (by decide), if_neg (by decide)]
    exact ⟨owned, hown, fun name item hitem => ⟨item, hitem, rfl, rfl, fun _ => rfl⟩⟩

/-! ### Binding an owned path -/

/-- What a name of the document is coerced to. -/
theorem lookup_coerced {entries : Dict} {raw : Json}
    (h : coerceOwnedPaths (.obj entries) = .ok owned) (hname : entries.lookup name = some raw) :
    ∃ item, owned.lookup name = some item ∧ coerceOwnedPath name raw [] = .ok item := by
  obtain ⟨_, ⟨⟩, -, hall, -⟩ := coerceOwnedPaths_eq_ok.1 h
  clear h
  induction hall with
  | nil => cases hname
  | @cons entry found entries owned hent _ ih =>
    obtain ⟨found, item⟩ := found
    obtain ⟨rfl, hitem⟩ := hent
    rw [List.lookup_cons] at hname ⊢
    by_cases hkey : name = entry.1
    · rw [beq_iff_eq.2 hkey] at hname ⊢
      cases hname
      exact ⟨item, rfl, hkey ▸ hitem⟩
    · rw [beq_eq_false_iff_ne.2 hkey] at hname ⊢
      exact ih hname

theorem OwnedKind.value_injective {kind kind' : OwnedKind} (h : kind.value = kind'.value) :
    kind = kind' := by
  cases kind <;> cases kind' <;> first | rfl | exact absurd h (by decide)

theorem OwnedFileType.value_injective {fileType' : OwnedFileType}
    (h : fileType.value = fileType'.value) : fileType = fileType' := by
  cases fileType <;> cases fileType' <;> first | rfl | exact absurd h (by decide)

theorem optionalText_injective {text text' : Option String}
    (h : optionalText text = optionalText text') : text = text' := by
  cases text <;> cases text' <;> simp_all [optionalText]

/-- The fields of an identity determine it. -/
theorem eq_of_toDict {found : OwnedPathIdentity}
    (h : ∀ e ∈ found.toDict, Dict.get identity.toDict e.1 = e.2) : found = identity := by
  simp only [OwnedPathIdentity.toDict, List.forall_mem_cons] at h
  obtain ⟨hdev, hinode, htype, hchg, hsize, hsha256, htgt, -⟩ := h
  obtain ⟨device, inode, fileType, changedNs, size, sha256, target, _⟩ := identity
  obtain ⟨device', inode', fileType', changedNs', size', sha256', target', _⟩ := found
  change Json.num device "" = .num device' "" at hdev
  change Json.num inode "" = .num inode' "" at hinode
  change Json.str fileType.value = .str fileType'.value at htype
  change Json.num changedNs "" = .num changedNs' "" at hchg
  change Json.num size "" = .num size' "" at hsize
  change optionalText sha256 = optionalText sha256' at hsha256
  change optionalText target = optionalText target' at htgt
  simp only [Json.num.injEq, Int.ofNat_inj, and_true] at hdev hinode hchg hsize
  rw [Json.str.injEq] at htype
  obtain rfl := OwnedFileType.value_injective htype
  obtain rfl := optionalText_injective hsha256
  obtain rfl := optionalText_injective htgt
  subst hdev hinode hchg hsize
  rfl

theorem coerceOwnedIdentity_toDict {found : Option OwnedPathIdentity}
    (h : coerceOwnedIdentity (.obj identity.toDict) = .ok found) : found = some identity := by
  rcases found with _ | found
  · cases coerceOwnedIdentity_eq_none.1 h
  · obtain ⟨_, ⟨⟩, -, hdict, -⟩ := coerceOwnedIdentity_eq_some.1 h
    rw [eq_of_toDict hdict]

theorem coerceOwnedPath_bound {identity : Json}
    (h : coerceOwnedPath name (.obj (Dict.set item.toDict "identity" identity)) [] = .ok item') :
    item'.path = item.path ∧ item'.kind = item.kind ∧
      coerceOwnedIdentity identity = .ok item'.identity := by
  obtain ⟨-, -, _, ⟨⟩, -, hpath, hkind, hident⟩ := coerceOwnedPath_eq_ok.1 h
  rw [Dict.get_set, if_neg (by decide)] at hpath hkind
  rw [Dict.get_set, if_pos rfl] at hident
  change Json.str item.path = .str item'.path at hpath
  change Json.str item.kind.value = .str item'.kind.value at hkind
  rw [Json.str.injEq] at hpath hkind
  exact ⟨hpath.symm, OwnedKind.value_injective hkind.symm, hident⟩

theorem coerceOwnedPath_toDict (h : coerceOwnedPath name (.obj item.toDict) [] = .ok item') :
    item'.path = item.path ∧ item'.kind = item.kind ∧ item'.identity = item.identity := by
  have hbd : Dict.set item.toDict "identity" (identityJson item.identity) = item.toDict := rfl
  rw [← hbd] at h
  obtain ⟨hpath, hkind, hident⟩ := coerceOwnedPath_bound h
  refine ⟨hpath, hkind, ?_⟩
  rcases hitem : item.identity with _ | identity
  · rw [hitem] at hident
    exact Except.ok.inj hident.symm
  · rw [hitem] at hident
    exact coerceOwnedIdentity_toDict hident

theorem identityRecord_distinct (stat : Durable.Stat) (size : Nat) (fileType : OwnedFileType)
    (digest linkTarget : Option String) :
    Json.Distinct (.obj (identityRecord stat size fileType digest linkTarget)) := by
  refine Json.distinct_obj_of_isLeaf (by simp [identityRecord]) (List.all_eq_true.2 ?_)
  simp only [identityRecord, List.forall_mem_cons, isLeaf_optionalText, true_and]
  exact ⟨rfl, rfl, rfl, rfl, rfl, List.forall_mem_nil _⟩

theorem ownedIdentityAt_distinct {host : Host} {entry : Durable.Entry FileContent} {display : Path}
    (h : ownedIdentityAt host entry display = .ok (fileType, observed)) :
    Json.Distinct (.obj observed) := by
  unfold ownedIdentityAt at h
  split at h
  · cases h
    exact identityRecord_distinct ..
  · cases h
    exact identityRecord_distinct ..
  · cases h
    exact identityRecord_distinct ..
  · cases h

/-- **Binding an owned path edits**: an identity that is bound again is the recorded one. -/
theorem bindOwnedPath_edits (hsound : Journal.Sound value) {refusal : String}
    (hown : claimableOwnedPaths value refusal = .ok owned)
    (hitem : ownedItem owned name = .ok item)
    (hsame : (item.identity.all fun previous => previous.toDict == observed) = true)
    (hobs : Json.Distinct (.obj observed))
    (h : bindOwnedPath value owned name item observed now = .ok value') : Edits value value' := by
  unfold claimableOwnedPaths at hown
  unfold bindOwnedPath at h
  simp only [bind_eq_ok, string_eq_ok, ensure_eq_ok, exists_const] at h hown
  obtain ⟨_, hst, hopen, hcoerced⟩ := hown
  obtain ⟨_, hval, hv⟩ := h
  obtain rfl := Except.ok.inj hv
  have hval' := validateJournal_ok_iff.1 hval
  have hlook : owned.lookup name = some item := by
    unfold ownedItem at hitem
    split at hitem
    · cases hitem
    · rename_i found hfound
      cases hitem
      exact hfound
  set entries : Dict := owned.map fun entry => (entry.1, Json.obj entry.2.toDict) with hents
  set bound : Json := .obj (Dict.set item.toDict "identity" (.obj observed))
  have hget : ∀ field, field ≠ "updated_at" → ((value.set "owned_paths"
      (.obj (entries.set name bound))).set "updated_at" (.str now)).get field =
      if field = "owned_paths" then .obj (entries.set name bound) else value.get field := by
    intro field hfield
    rw [Dict.get_set, if_neg hfield, Dict.get_set]
  have hdist : Json.Distinct (.obj entries) := by
    refine Json.distinct_obj.2 ⟨?_, fun e he => ?_⟩
    · obtain ⟨_, hraw, -⟩ := coerceOwnedPaths_eq_ok.1 hcoerced
      have hkeys := (hsound.distinct.get "owned_paths")
      rw [hraw] at hkeys hcoerced
      rw [hents, List.map_map]
      show (owned.map Prod.fst).Nodup
      rw [map_fst_coerced hcoerced]
      exact hkeys.1
    · obtain ⟨found, -, rfl⟩ := List.mem_map.1 he
      exact found.2.distinct_toDict
  refine ⟨not_terminal_of_string hst hopen, ⟨hval', ?_⟩, ?_⟩
  · refine (hsound.distinct.set _ (hdist.set _ ?_)).set _ trivial
    exact item.distinct_toDict.set _ hobs
  refine ⟨fun hbdry => ?_, fun phases hph => ?_, fun owned' hown' => ?_⟩
  · rw [hget _ (by decide), if_neg (by decide), hbdry]
  · rw [hget _ (by decide), if_neg (by decide)]
    exact ⟨phases, hph, fun _ _ h => h⟩
  · rw [hcoerced] at hown'
    cases hown'
    obtain ⟨next, hnext⟩ := hval'.owned
    refine ⟨next, hnext, fun other found hother => ?_⟩
    rw [hget _ (by decide), if_pos rfl] at hnext
    by_cases hname : other = name
    · subst hname
      rw [hlook] at hother
      cases hother
      have hent : (entries.set other bound).lookup other = some bound := by
        rw [Dict.lookup_set, if_pos rfl]
      obtain ⟨item', hitem', hcoerce⟩ := lookup_coerced hnext hent
      obtain ⟨hpath, hkind, hident⟩ := coerceOwnedPath_bound hcoerce
      refine ⟨item', hitem', hpath, hkind, fun hsome => ?_⟩
      obtain ⟨previous, hprev⟩ := Option.isSome_iff_exists.1 hsome
      rw [hprev, Option.all_some, beq_iff_eq] at hsame
      rw [← hsame] at hident
      rw [coerceOwnedIdentity_toDict hident, hprev]
    · have hent : (entries.set name bound).lookup other = some (.obj found.toDict) := by
        have hmap := Dict.lookup_map owned (fun item => Json.obj (OwnedPath.toDict item)) other
        rw [hother, Option.map_some] at hmap
        rw [Dict.lookup_set, if_neg hname, hents, hmap]
      obtain ⟨item', hitem', hcoerce⟩ := lookup_coerced hnext hent
      obtain ⟨hpath, hkind, hident⟩ := coerceOwnedPath_toDict hcoerce
      exact ⟨item', hitem', hpath, hkind, fun _ => hident⟩

/-- Only a journal that is not terminal may be discarded, and only before the boundary. -/
theorem discardableOwnedPaths_eq_ok (h : discardableOwnedPaths value = .ok owned) :
    ¬ Terminal value ∧ value.get "irreversible_boundary" ≠ .bool true ∧
      coerceOwnedPaths (value.get "owned_paths") = .ok owned := by
  unfold discardableOwnedPaths recoveryMode at h
  simp only [bind_eq_ok, string_eq_ok, ensure_eq_ok, exists_const, Bool.and_eq_true,
    decide_eq_true_eq] at h
  obtain ⟨_, ⟨_, hst, hmode⟩, ⟨_, rfl⟩, hcoerced⟩ := h
  split_ifs at hmode with hterm hbdry
  · exact absurd (Except.ok.inj hmode) (by decide)
  · exact absurd (Except.ok.inj hmode) (by decide)
  · exact ⟨not_terminal_of_string hst (by simpa using hterm), hbdry, hcoerced⟩

/-- **`discard_full_transaction` edits**, of a journal that may be discarded. -/
theorem recoveredValue_edits (hsound : Journal.Sound value)
    (hown : discardableOwnedPaths value = .ok owned) (h : recoveredValue value now = .ok value') :
    Edits value value' := by
  unfold recoveredValue at h
  simp only [bind_eq_ok] at h
  obtain ⟨_, hval, hv⟩ := h
  obtain rfl := Except.ok.inj hv
  have hget : ∀ field, field ≠ "recovered_from" → field ≠ "state" → field ≠ "updated_at" →
      (((value.set "recovered_from" (value.get "state")).set "state" (.str "recovered")).set
        "updated_at" (.str now)).get field = value.get field := by
    intro field hrecov hst htime
    rw [Dict.get_set, if_neg htime, Dict.get_set, if_neg hst, Dict.get_set, if_neg hrecov]
  refine ⟨(discardableOwnedPaths_eq_ok hown).1, ⟨validateJournal_ok_iff.1 hval, ?_⟩,
    .of_get (fun hbdry => ?_) (hget _ (by decide) (by decide) (by decide))
      (hget _ (by decide) (by decide) (by decide))⟩
  · exact ((hsound.distinct.set _ (hsound.distinct.get _)).set _ (by trivial)).set _ trivial
  · rw [hget _ (by decide) (by decide) (by decide), hbdry]

end

/-! ### A new journal -/

/-- The document of a new journal has no key twice. -/
theorem newJournal_distinct {request : JournalRequest}
    (h : coerceOwnedPaths (.obj request.ownedPaths.entries) = .ok owned) (now : String) :
    Json.Distinct (.obj (newJournal request owned now)) := by
  have hown : Json.Distinct (ownedPathsJson owned) := by
    refine Json.distinct_obj.2 ⟨?_, fun e he => ?_⟩
    · rw [List.map_map]
      show (owned.map Prod.fst).Nodup
      rw [map_fst_coerced h]
      exact request.ownedPaths.nodup
    · obtain ⟨found, -, rfl⟩ := List.mem_map.1 he
      exact found.2.distinct_toDict
  have hbool : ∀ b, Json.Distinct (optionalBool b) := by
    rintro (_ | b) <;> trivial
  refine Json.distinct_obj.2 ⟨?_, ?_⟩
  · show List.Nodup ["schema_version", "invocation_id", "desired_fingerprint", "mode", "state",
      "started_at", "updated_at", "previous_generation", "prepared_generation", "service_name",
      "service_was_active", "service_was_enabled", "recovered_from", "irreversible_boundary",
      "owned_paths", "phase_identities"]
    decide
  · have htext := Json.distinct_of_isLeaf (isLeaf_optionalText request.serviceName)
    simp only [newJournal, List.forall_mem_cons, hown, hbool, htext, true_and]
    refine ⟨trivial, trivial, trivial, trivial, trivial, trivial, trivial, trivial, trivial,
      trivial, trivial, ⟨List.nodup_singleton _, trivial, trivial⟩, List.forall_mem_nil _⟩

end ClioQueue.Bootstrap
