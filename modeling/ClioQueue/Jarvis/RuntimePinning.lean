/-
# What a run of merges keeps

Whatever is merged, a field has a source exactly when it is set, the source is that of an observation
which had this value (`Sourced`), and an observation merged twice in a row
is merged once (`mergedMetadata_again`).  The identity that a trusted source gives is another
matter: where a document of higher priority holds an untrusted value of it, that value wins, and
nothing is pinned.  `identity_pinned` is about the runs in which this does not happen.
-/

import ClioQueue.Jarvis.RuntimeMetadata

namespace ClioQueue.Jarvis

open Durable Wire

variable {φ : Type}

/-! ### The sources of the fields -/

theorem mem_runtimeFields (field : RuntimeField) : field ∈ runtimeFields := by
  cases field <;> decide

theorem runtimeField_key_inj {a b : RuntimeField} (h : a.key = b.key) : a = b := by
  have hall : ∀ a ∈ runtimeFields, ∀ b ∈ runtimeFields, a.key = b.key → a = b := by decide
  exact hall a (mem_runtimeFields a) b (mem_runtimeFields b) h

theorem lookup_sourceEntries (sourceOf : RuntimeField → Option RuntimeSource)
    (field : RuntimeField) : (sourceEntries sourceOf).lookup field.key = sourceOf field := by
  have hlist : ∀ fields : List RuntimeField,
      (fields.filterMap fun field => (sourceOf field).map (Prod.mk field.key)).lookup field.key =
        if field ∈ fields then sourceOf field else none := by
    intro fields
    induction fields with
    | nil => rfl
    | cons first fields ih =>
      rw [List.filterMap_cons]
      by_cases hfirst : field = first
      · subst hfirst
        rcases hsrc : sourceOf field with _ | source
        · simp [hsrc, ih]
        · simp
      · have hkey : (field.key == first.key) = false :=
          beq_eq_false_iff_ne.2 fun h => hfirst (runtimeField_key_inj h)
        rcases sourceOf first with _ | source
        · simp [hfirst, ih]
        · simp [hfirst, ih, List.lookup_cons, hkey]
  rw [sourceEntries, hlist, if_pos (mem_runtimeFields field)]

/-- The sources of an observation are those that `_field_sources` assigns. -/
def Observed (metadata : RuntimeMetadata φ) : Prop :=
  metadata.fieldSources = fieldSourcesOf metadata metadata.source

instance (metadata : RuntimeMetadata φ) : Decidable (Observed metadata) :=
  inferInstanceAs (Decidable (_ = _))

/-- A field has a source exactly when it is set. -/
def Sourced (metadata : RuntimeMetadata φ) : Prop :=
  ∀ field, (metadata.sourceOf field).isSome = (metadata.get field).isSet

theorem Observed.sourceOf {metadata : RuntimeMetadata φ} (h : Observed metadata)
    (field : RuntimeField) : metadata.sourceOf field =
      if (metadata.get field).isSet then some metadata.source else none := by
  rw [RuntimeMetadata.sourceOf, h, fieldSourcesOf, lookup_sourceEntries]

theorem Observed.sourced {metadata : RuntimeMetadata φ} (h : Observed metadata) :
    Sourced metadata := by
  intro _
  rw [h.sourceOf]
  split_ifs with hset
  · rw [hset]
    rfl
  · rw [Bool.eq_false_iff.2 hset]
    rfl

theorem Sourced.pinnedSource_eq {metadata : RuntimeMetadata φ} (h : Sourced metadata)
    {field : RuntimeField} {source : RuntimeSource} :
    pinnedSource metadata field = some source ↔
      field ∈ pinnedFields ∧ metadata.sourceOf field = some source ∧
        source.authoritative = true := by
  have hfield := h field
  unfold pinnedSource authoritativeFieldSource
  rcases hsrc : metadata.sourceOf field with _ | found
  · rw [hsrc] at hfield
    simp [← hfield]
  · rw [hsrc] at hfield
    by_cases hpin : field ∈ pinnedFields
    · rcases hauth : found.authoritative with _ | _
      · simp only [hpin, ← hfield, hauth, Option.isSome_some, Option.getD_some,
          if_true, Bool.false_eq_true, if_false, true_and, Option.some.injEq, reduceCtorEq,
          false_iff, not_and]
        rintro rfl h
        rw [hauth] at h
        cases h
      · simp only [hpin, ← hfield, hauth, Option.isSome_some, Option.getD_some,
          if_true, true_and, Option.some.injEq, iff_self_and]
        rintro rfl
        exact hauth
    · simp [hpin]

/-! ### The merged document -/

variable {current incoming : RuntimeMetadata φ} {field : RuntimeField}

@[simp]
theorem get_mergedMetadata (field : RuntimeField) :
    (mergedMetadata current incoming).get field = (selected current incoming field).get field := by
  cases field <;> rfl

theorem sourceOf_mergedMetadata (h : Sourced current) (field : RuntimeField) :
    (mergedMetadata current incoming).sourceOf field =
      (selected current incoming field).sourceOf field := by
  have hsrc : (mergedMetadata current incoming).sourceOf field =
      selectedSource current incoming field := lookup_sourceEntries _ field
  rw [hsrc, selectedSource]
  split
  · rename_i _ hpin
    rw [selected, hpin, Option.isSome_some, if_pos rfl]
    exact (h.pinnedSource_eq.1 hpin).2.1.symm
  · rfl

theorem selected_eq_or (current incoming : RuntimeMetadata φ) (field : RuntimeField) :
    selected current incoming field = current ∨ selected current incoming field = incoming := by
  unfold selected primaryOf secondaryOf
  split_ifs <;> simp

theorem Sourced.mergedMetadata (h : Sourced current) (h' : Sourced incoming) :
    Sourced (mergedMetadata current incoming) := by
  intro field
  rw [sourceOf_mergedMetadata h, get_mergedMetadata]
  rcases selected_eq_or current incoming field with heq | heq
  · rw [heq]
    exact h field
  · rw [heq]
    exact h' field

/-! ### A document merged again -/

@[simp]
theorem prefersIncoming_mergedMetadata :
    prefersIncoming (mergedMetadata current incoming) incoming =
      prefersIncoming current incoming := by
  have hsrc : (mergedMetadata current incoming).source = (primaryOf current incoming).source := rfl
  unfold prefersIncoming at *
  rw [hsrc, primaryOf, prefersIncoming]
  by_cases h : current.source.priority ≤ incoming.source.priority
  · simp [h]
  · simp [h]

/-- Where a field of the merged document is pinned: it was, or the incoming one pins it. -/
theorem selected_of_pinned (h : Sourced current) (h' : Sourced incoming)
    (hpin : (pinnedSource (mergedMetadata current incoming) field).isSome = true) :
    (pinnedSource current field).isSome = true ∨ selected current incoming field = incoming := by
  obtain ⟨source, hsrc⟩ := Option.isSome_iff_exists.1 hpin
  obtain ⟨hfield, hfound, hauth⟩ := (h.mergedMetadata h').pinnedSource_eq.1 hsrc
  rw [sourceOf_mergedMetadata h] at hfound
  rcases selected_eq_or current incoming field with heq | heq
  · rw [heq] at hfound
    exact Or.inl (Option.isSome_iff_exists.2 ⟨source, h.pinnedSource_eq.2 ⟨hfield, hfound, hauth⟩⟩)
  · exact Or.inr heq

theorem pinnedSource_mergedMetadata (h : Sourced current) (h' : Sourced incoming)
    {source : RuntimeSource} (hpin : pinnedSource current field = some source) :
    pinnedSource (mergedMetadata current incoming) field = some source := by
  have hsel : selected current incoming field = current := by
    rw [selected, hpin, Option.isSome_some, if_pos rfl]
  obtain ⟨hfield, hfound, hauth⟩ := h.pinnedSource_eq.1 hpin
  refine (h.mergedMetadata h').pinnedSource_eq.2 ⟨hfield, ?_, hauth⟩
  rw [sourceOf_mergedMetadata h, hsel, hfound]

/-- Where a field that is not pinned is taken from. -/
theorem selected_of_not_pinned (h : ¬ (pinnedSource current field).isSome = true) :
    selected current incoming field = if prefersIncoming current incoming then
        if (incoming.get field).isSet then incoming else current
      else if (current.get field).isSet then current else incoming := by
  rw [selected, if_neg h, primaryOf, secondaryOf]
  cases prefersIncoming current incoming <;> rfl

/-- The fields are taken from where they were taken the first time. -/
theorem selected_again (h : Sourced current) (h' : Sourced incoming) (field : RuntimeField) :
    (selected (mergedMetadata current incoming) incoming field).get field =
        (mergedMetadata current incoming).get field ∧
      (selected (mergedMetadata current incoming) incoming field).sourceOf field =
        (mergedMetadata current incoming).sourceOf field := by
  rw [sourceOf_mergedMetadata h, get_mergedMetadata]
  by_cases hpin : (pinnedSource (mergedMetadata current incoming) field).isSome = true
  · have hmerge : selected (mergedMetadata current incoming) incoming field =
        mergedMetadata current incoming := by
      rw [selected, if_pos hpin]
    rw [hmerge, get_mergedMetadata, sourceOf_mergedMetadata h]
    exact ⟨rfl, rfl⟩
  · have hcur : ¬ (pinnedSource current field).isSome = true := by
      intro hsome
      obtain ⟨source, hsrc⟩ := Option.isSome_iff_exists.1 hsome
      exact hpin (Option.isSome_iff_exists.2 ⟨source, pinnedSource_mergedMetadata h h' hsrc⟩)
    have hmerge : (mergedMetadata current incoming).get field = _ := get_mergedMetadata field
    have hsrc : (mergedMetadata current incoming).sourceOf field = _ :=
      sourceOf_mergedMetadata h field
    rw [selected_of_not_pinned hcur] at hmerge hsrc ⊢
    rw [selected_of_not_pinned hpin, prefersIncoming_mergedMetadata]
    rcases hprefers : prefersIncoming current incoming with _ | _
    · simp only [hprefers, Bool.false_eq_true, if_false] at hmerge hsrc ⊢
      rcases hset : (current.get field).isSet with _ | _
      · simp only [hset, Bool.false_eq_true, if_false] at hmerge hsrc ⊢
        rw [hmerge]
        split_ifs with hincoming
        · exact ⟨hmerge, hsrc⟩
        · exact ⟨rfl, rfl⟩
      · simp only [hset, if_true] at hmerge hsrc ⊢
        rw [hmerge, hset, if_pos rfl]
        exact ⟨hmerge, hsrc⟩
    · simp only [hprefers, if_true] at hmerge hsrc ⊢
      rcases hset : (incoming.get field).isSet with _ | _
      · simp only [hset, Bool.false_eq_true, if_false] at hmerge hsrc ⊢
        exact ⟨hmerge, hsrc⟩
      · simp

/-- What the merged document takes from the one that goes first is what that one has again. -/
theorem primaryOf_again {α : Type} (p : RuntimeMetadata φ → α)
    (h : p (mergedMetadata current incoming) = p (primaryOf current incoming)) :
    p (primaryOf (mergedMetadata current incoming) incoming) =
      p (mergedMetadata current incoming) := by
  rw [h]
  unfold primaryOf
  rw [prefersIncoming_mergedMetadata]
  rcases hprefers : prefersIncoming current incoming with _ | _
  · simp only [Bool.false_eq_true, if_false]
    rw [h, primaryOf, hprefers]
    rfl
  · rfl

theorem details_again :
    (secondaryOf (mergedMetadata current incoming) incoming).details.merge
        (primaryOf (mergedMetadata current incoming) incoming).details =
      (mergedMetadata current incoming).details := by
  have hmerge : (mergedMetadata current incoming).details =
      (secondaryOf current incoming).details.merge (primaryOf current incoming).details := rfl
  unfold primaryOf secondaryOf at *
  rw [prefersIncoming_mergedMetadata]
  rcases hprefers : prefersIncoming current incoming with _ | _
  · simp only [hprefers, Bool.false_eq_true, if_false] at hmerge ⊢
    rw [hmerge, JsonDict.merge_self_merge]
  · simp only [hprefers, if_true] at hmerge ⊢
    rw [hmerge, JsonDict.merge_merge_self]

/-- **Merging what was just merged gives the same document.** -/
theorem mergedMetadata_again (h : Sourced current) (h' : Sourced incoming) :
    mergedMetadata (mergedMetadata current incoming) incoming =
      mergedMetadata current incoming := by
  have hget := fun field => (selected_again h h' field).1
  have hsources : sourceEntries (selectedSource (mergedMetadata current incoming) incoming) =
      sourceEntries (selectedSource current incoming) := by
    refine List.filterMap_congr fun field _ => ?_
    have hagain : (mergedMetadata (mergedMetadata current incoming) incoming).sourceOf field = _ :=
      sourceOf_mergedMetadata (h.mergedMetadata h') field
    have hfirst := (selected_again h h' field).2
    have hleft : (mergedMetadata (mergedMetadata current incoming) incoming).sourceOf field =
      selectedSource (mergedMetadata current incoming) incoming field := lookup_sourceEntries _ field
    have hright : (mergedMetadata current incoming).sourceOf field =
      selectedSource current incoming field := lookup_sourceEntries _ field
    rw [← hleft, ← hright, hagain, hfirst]
  have htext : ∀ {a b : Option String}, FieldValue.text (φ := φ) a = .text b → a = b :=
    fun h => FieldValue.text.inj h
  have hterm : (mergedMetadata (mergedMetadata current incoming) incoming).terminal =
      (mergedMetadata current incoming).terminal :=
    TerminalMetadata.ext (htext (hget .state)) (FieldValue.flag.inj (hget .terminal))
      (FieldValue.code.inj (hget .returncode)) (htext (hget .reason)) (htext (hget .startedAt))
      (htext (hget .finishedAt))
  exact RuntimeMetadata.ext (primaryOf_again RuntimeMetadata.schemaVersion rfl)
    (primaryOf_again RuntimeMetadata.source rfl) (primaryOf_again RuntimeMetadata.observedAt rfl)
    (htext (hget .executionId)) (htext (hget .pipelineId)) (htext (hget .schedulerProvider))
    (htext (hget .schedulerType)) (htext (hget .schedulerJobId)) (htext (hget .schedulerPhase))
    (htext (hget .scriptPath)) (htext (hget .hostfilePath)) (htext (hget .outputPath))
    (htext (hget .errorPath)) (FieldValue.nodes.inj (hget .allocatedNodes))
    (FieldValue.packages.inj (hget .packages)) hterm hsources details_again

/-! ### What a merge accepts -/

/-- A trusted source supplies a value of an identity. -/
def Supplies (observation : RuntimeMetadata φ) (field : RuntimeField) (value : String) : Prop :=
  field ∈ pinnedFields ∧ observation.source.authoritative = true ∧
    observation.get field = .text (some value)

/-- A value of an identity has a trusted source. -/
def Pinned (metadata : RuntimeMetadata φ) (field : RuntimeField) (value : String) : Prop :=
  metadata.get field = .text (some value) ∧ (pinnedSource metadata field).isSome = true

theorem Observed.supplies_iff {observation : RuntimeMetadata φ} (h : Observed observation)
    {value : String} : Supplies observation field value ↔ Pinned observation field value := by
  rw [Pinned, Supplies, Option.isSome_iff_exists]
  simp only [h.sourced.pinnedSource_eq, h.sourceOf]
  constructor
  · rintro ⟨hfield, hsrc, hv⟩
    refine ⟨hv, observation.source, hfield, ?_, hsrc⟩
    rw [hv]
    rfl
  · rintro ⟨hv, source, hfield, hfound, hsrc⟩
    rw [hv] at hfound
    cases hfound
    exact ⟨hfield, hsrc, hv⟩

/-- The values of an identity are texts. -/
theorem Sourced.pinned_of_isSome {metadata : RuntimeMetadata φ} (h : Sourced metadata)
    (hpin : (pinnedSource metadata field).isSome = true) :
    ∃ value, Pinned metadata field value := by
  obtain ⟨_, hsrc⟩ := Option.isSome_iff_exists.1 hpin
  obtain ⟨hfield, hfound, -⟩ := h.pinnedSource_eq.1 hsrc
  have hset : (metadata.get field).isSet = true := by
    rw [← h field, hfound]
    rfl
  have htext : ∃ value, metadata.get field = .text value := by
    simp only [pinnedFields, List.mem_cons, List.not_mem_nil, or_false] at hfield
    rcases hfield with rfl | rfl | rfl | rfl <;> exact ⟨_, rfl⟩
  obtain ⟨value, hv⟩ := htext
  rw [hv] at hset
  obtain ⟨text, rfl⟩ := Option.isSome_iff_exists.1 hset
  exact ⟨text, hv, hpin⟩

section Accepts

variable [LowerCase]

@[simp]
theorem sameRuntimeIdentity_self (field : RuntimeField) (value : String) :
    sameRuntimeIdentity field value value = true := by
  unfold sameRuntimeIdentity
  split_ifs <;> exact decide_eq_true rfl

theorem sameRuntimeIdentity_iff {field : RuntimeField} {a b : String} :
    sameRuntimeIdentity field a b = true ↔
      if field = .schedulerProvider then normalizedProvider a = normalizedProvider b else a = b := by
  unfold sameRuntimeIdentity
  split_ifs <;> exact decide_eq_true_iff

theorem sameRuntimeIdentity_symm {field : RuntimeField} {a b : String}
    (h : sameRuntimeIdentity field a b = true) : sameRuntimeIdentity field b a = true := by
  rw [sameRuntimeIdentity_iff] at h ⊢
  split_ifs at h ⊢
  · exact h.symm
  · exact h.symm

theorem sameRuntimeIdentity_trans {field : RuntimeField} {a b c : String}
    (hab : sameRuntimeIdentity field a b = true) (hbc : sameRuntimeIdentity field b c = true) :
    sameRuntimeIdentity field a c = true := by
  rw [sameRuntimeIdentity_iff] at hab hbc ⊢
  split_ifs at hab hbc ⊢
  · exact hab.trans hbc
  · exact hab.trans hbc

/-- A pinned field passes the check exactly if no two trusted sources disagree on it. -/
theorem checkPinned_eq_ok {current incoming : RuntimeMetadata φ} (h : Sourced current)
    (h' : Sourced incoming) {field : RuntimeField} (hfield : field ∈ pinnedFields) :
    checkPinned current incoming field = .ok () ↔
      ∀ pinned value, Pinned current field pinned → Pinned incoming field value →
        sameRuntimeIdentity field pinned value = true := by
  have hincoming : authoritativeFieldSource incoming field = pinnedSource incoming field := by
    rw [pinnedSource, if_pos hfield]
  unfold checkPinned
  rw [hincoming]
  by_cases hpin : (pinnedSource current field).isSome = true
  · obtain ⟨pinned, hcur⟩ := h.pinned_of_isSome hpin
    obtain ⟨_, hsrc⟩ := Option.isSome_iff_exists.1 hpin
    by_cases hsupp : (pinnedSource incoming field).isSome = true
    · obtain ⟨value, hv⟩ := h'.pinned_of_isSome hsupp
      obtain ⟨_, hsrc'⟩ := Option.isSome_iff_exists.1 hsupp
      simp only [hsrc, hsrc', hcur.1, hv.1, FieldValue.text?]
      rcases hsame : sameRuntimeIdentity field pinned value with _ | _
      · simp only [Bool.false_eq_true, if_false, reduceCtorEq, false_iff, not_forall]
        exact ⟨pinned, value, hcur, hv, by simp [hsame]⟩
      · simp only [if_true, true_iff]
        rintro _ _ ⟨hpin', -⟩ ⟨hv', -⟩
        rw [hcur.1] at hpin'
        rw [hv.1] at hv'
        cases hpin'
        cases hv'
        exact hsame
    · rw [Option.not_isSome_iff_eq_none] at hsupp
      simp [hsupp, Pinned]
  · rw [Option.not_isSome_iff_eq_none] at hpin
    simp [hpin, Pinned]

variable [PyFloat φ] [IsoFormat]

/-- **What a merge accepts.** -/
theorem mergeRuntimeMetadata_eq_ok {current incoming merged : RuntimeMetadata φ}
    (h : Sourced current) (h' : Sourced incoming) :
    mergeRuntimeMetadata (some current) incoming = .ok merged ↔
      validateRuntimeTransition current incoming = .ok () ∧
      (∀ field ∈ pinnedFields, ∀ pinned value, Pinned current field pinned →
        Pinned incoming field value → sameRuntimeIdentity field pinned value = true) ∧
      merged = mergedMetadata current incoming := by
  have hchecks : (∀ field ∈ pinnedFields, checkPinned current incoming field = .ok ()) ↔
      ∀ field ∈ pinnedFields, ∀ pinned value, Pinned current field pinned →
        Pinned incoming field value → sameRuntimeIdentity field pinned value = true :=
    forall₂_congr fun field hfield => checkPinned_eq_ok h h' hfield
  simp only [mergeRuntimeMetadata, bind_eq_ok, forM_eq_ok, hchecks, pure_eq_ok, exists_const,
    eq_comm (b := merged)]
  constructor
  · rintro ⟨_, htr, hpins, hmerge⟩
    exact ⟨htr, hpins, hmerge⟩
  · rintro ⟨htr, hpins, hmerge⟩
    exact ⟨(), htr, hpins, hmerge⟩

end Accepts

end ClioQueue.Jarvis
