/-
# Runs of merges

Observations are merged one after another; one that is refused leaves what is known as it is.
`runtime_runs_keep` collects what every run keeps.  The pin of an identity needs a condition: that no
accepted step displaces a trusted value, that is, prefers an untrusted value held by a document
of higher priority (`displaces`).
-/

import ClioQueue.Jarvis.RuntimePinning

namespace ClioQueue.Jarvis

open Durable Wire

section Runs

variable {φ : Type} [PyFloat φ] [IsoFormat]

/-! ### One observation twice -/

/-- A merge is accepted exactly if the native documents of both sides can be read and the later
follow the earlier. -/
theorem validateRuntimeTransition_eq_ok {current incoming : RuntimeMetadata φ} :
    validateRuntimeTransition current incoming = .ok () ↔
      ∃ old new, nativeDocumentsOf current = .ok old ∧ nativeDocumentsOf incoming = .ok new ∧
        ∀ a ∈ old, ∀ b ∈ new, validateNativeTransition a b = .ok () := by
  simp only [validateRuntimeTransition, bind_eq_ok]
  refine exists_congr fun old => ?_
  rw [exists_and_left]
  refine and_congr_right fun _ => exists_congr fun new => and_congr_right fun _ => ?_
  rcases old with _ | a
  · simp
  · rcases new with _ | b
    · simp
    · simp only [Option.mem_some_iff, forall_eq']
      cases validateNativeTransition a b <;> simp

theorem nativeDocumentsOf_mergedMetadata (current incoming : RuntimeMetadata φ) :
    nativeDocumentsOf (mergedMetadata current incoming) = nativeDocumentsOf current ∨
      nativeDocumentsOf (mergedMetadata current incoming) = nativeDocumentsOf incoming := by
  have hdetails : (mergedMetadata current incoming).details.get "native_execution" =
      current.details.get "native_execution" ∨
      (mergedMetadata current incoming).details.get "native_execution" =
        incoming.details.get "native_execution" := by
    have hmerged : (mergedMetadata current incoming).details =
        (secondaryOf current incoming).details.merge (primaryOf current incoming).details := rfl
    rw [hmerged, JsonDict.get, Fields.get, JsonDict.lookup_merge]
    unfold primaryOf secondaryOf JsonDict.get Fields.get
    rcases prefersIncoming current incoming with _ | _
    · simp only [Bool.false_eq_true, if_false]
      cases current.details.fields.lookup "native_execution" <;> simp
    · simp only [if_true]
      cases incoming.details.fields.lookup "native_execution" <;> simp
  unfold nativeDocumentsOf
  rcases hdetails with h | h
  · exact Or.inl (by rw [h])
  · exact Or.inr (by rw [h])

/-- Documents that were read follow themselves. -/
theorem validateNativeTransition_self {metadata : RuntimeMetadata φ} {documents : NativeDocuments φ}
    (h : nativeDocumentsOf metadata = .ok (some documents)) :
    validateNativeTransition documents documents = .ok () := by
  unfold nativeDocumentsOf at h
  split at h
  · split at h
    · rename_i _ hread
      cases h
      obtain ⟨d, hd⟩ := Worker.readFrom_of_nativeExecutionDocuments hread
      exact validateNativeTransition_eq_ok.2 (NativeDocuments.Advances.refl hd _)
    · cases h
  · cases h

variable [LowerCase]
  {before observations : List (RuntimeMetadata φ)} {current : Option (RuntimeMetadata φ)}
  {field : RuntimeField} {incoming m merged observation : RuntimeMetadata φ} {value : String}

/-- **What was just merged is merged again, and changes nothing.** -/
theorem mergeRuntimeMetadata_again {current : RuntimeMetadata φ} (h : Sourced current)
    (h' : Sourced incoming) (hmerge : mergeRuntimeMetadata (some current) incoming = .ok merged) :
    mergeRuntimeMetadata (some merged) incoming = .ok merged := by
  obtain ⟨htr, hpins, rfl⟩ := (mergeRuntimeMetadata_eq_ok h h').1 hmerge
  refine (mergeRuntimeMetadata_eq_ok (h.mergedMetadata h') h').2 ⟨?_, ?_, ?_⟩
  · obtain ⟨old, new, hold, hnew, hadv⟩ := validateRuntimeTransition_eq_ok.1 htr
    refine validateRuntimeTransition_eq_ok.2 ?_
    rcases nativeDocumentsOf_mergedMetadata current incoming with heq | heq
    · exact ⟨old, new, heq.trans hold, hnew, hadv⟩
    · refine ⟨new, new, heq.trans hnew, hnew, fun a ha b hb => ?_⟩
      cases Option.mem_unique ha hb
      exact validateNativeTransition_self (hnew.trans (congrArg _ ha))
  · intro field hfield pinned value hpin hv
    rcases selected_of_pinned h h' hpin.2 with hcur | hsel
    · have hkept : (mergedMetadata current incoming).get field = current.get field := by
        rw [get_mergedMetadata, selected, if_pos hcur]
      exact hpins field hfield pinned value ⟨hkept ▸ hpin.1, hcur⟩ hv
    · have hsame := hpin.1
      rw [get_mergedMetadata, hsel, hv.1] at hsame
      cases hsame
      exact sameRuntimeIdentity_self field pinned
  · exact (mergedMetadata_again h h').symm

omit [PyFloat φ] [IsoFormat] [LowerCase] in
/-- An observation merged into itself is itself, because each of its fields has its own source. -/
theorem mergedMetadata_self (h : Observed incoming) :
    mergedMetadata incoming incoming = incoming := by
  have hsel : ∀ field, selected incoming incoming field = incoming := fun field => by
    simpa using selected_eq_or incoming incoming field
  have hprimary : primaryOf incoming incoming = incoming := by
    unfold primaryOf
    split_ifs <;> rfl
  have hsecondary : secondaryOf incoming incoming = incoming := by
    unfold secondaryOf
    split_ifs <;> rfl
  have hsources : sourceEntries (selectedSource incoming incoming) = incoming.fieldSources := by
    rw [h, fieldSourcesOf]
    refine List.filterMap_congr fun field _ => ?_
    have hmerged : (mergedMetadata incoming incoming).sourceOf field =
      selectedSource incoming incoming field := lookup_sourceEntries _ field
    rw [← hmerged, sourceOf_mergedMetadata h.sourced, hsel, h.sourceOf]
  unfold mergedMetadata
  simp only [hsel, hprimary, hsecondary, hsources, JsonDict.merge_self]

/-- The first observation merged again: only now its native documents are looked at. -/
theorem mergeRuntimeMetadata_first (h : Observed incoming) {documents : Option (NativeDocuments φ)}
    (hdocs : nativeDocumentsOf incoming = .ok documents) :
    mergeRuntimeMetadata (some incoming) incoming = .ok incoming := by
  refine (mergeRuntimeMetadata_eq_ok h.sourced h.sourced).2 ⟨?_, ?_, (mergedMetadata_self h).symm⟩
  · refine validateRuntimeTransition_eq_ok.2
      ⟨documents, documents, hdocs, hdocs, fun a ha b hb => ?_⟩
    cases Option.mem_unique ha hb
    exact validateNativeTransition_self (hdocs.trans (congrArg _ ha))
  · intro field _ _ _ hpin hv
    have hsame := hpin.1
    rw [hv.1] at hsame
    cases hsame
    exact sameRuntimeIdentity_self field _

/-! ### Runs -/

/-- What is known after a list of observations. -/
def known (observations : List (RuntimeMetadata φ)) : Option (RuntimeMetadata φ) :=
  observations.foldl afterObservation none

/-- An observation is merged. -/
def Accepted (before : List (RuntimeMetadata φ)) (observation : RuntimeMetadata φ) : Prop :=
  ∃ merged, mergeRuntimeMetadata (known before) observation = .ok merged

theorem known_append (before : List (RuntimeMetadata φ)) (observation : RuntimeMetadata φ) :
    known (before ++ [observation]) = afterObservation (known before) observation := by
  rw [known, List.foldl_append]
  rfl

/-- What is known is what was merged last, or what was known before. -/
theorem afterObservation_cases (current : Option (RuntimeMetadata φ))
    (observation : RuntimeMetadata φ) :
    (∃ merged, mergeRuntimeMetadata current observation = .ok merged ∧
      afterObservation current observation = some merged) ∨
    ((∀ merged, mergeRuntimeMetadata current observation ≠ .ok merged) ∧
      afterObservation current observation = current) := by
  unfold afterObservation
  rcases hmerge : mergeRuntimeMetadata current observation with e | merged
  · exact Or.inr ⟨by simp, rfl⟩
  · exact Or.inl ⟨merged, rfl, rfl⟩

/-- The merged observation alone, or the merged document. -/
theorem mergeRuntimeMetadata_cases (hcur : ∀ m ∈ current, Sourced m) (h : Observed observation)
    (hmerge : mergeRuntimeMetadata current observation = .ok merged) :
    (current = none ∧ merged = observation) ∨
      ∃ m, current = some m ∧ merged = mergedMetadata m observation := by
  rcases current with _ | m
  · cases hmerge
    exact Or.inl ⟨rfl, rfl⟩
  · obtain ⟨-, -, hmerged⟩ := (mergeRuntimeMetadata_eq_ok (hcur m rfl) h.sourced).1 hmerge
    exact Or.inr ⟨m, rfl, hmerged⟩

/-- Each field of what is known comes, with its source, from an observation that was merged. -/
def Witnessed (observations : List (RuntimeMetadata φ)) (metadata : RuntimeMetadata φ) : Prop :=
  ∀ field source, metadata.sourceOf field = some source →
    ∃ before observation after, observations = before ++ observation :: after ∧
      Accepted before observation ∧ observation.source = source ∧
      observation.get field = metadata.get field

/-- **What every run keeps of the sources.** -/
theorem known_sourced_witnessed (h : ∀ observation ∈ observations, Observed observation) :
    ∀ metadata ∈ known observations, Sourced metadata ∧ Witnessed observations metadata := by
  induction observations using List.reverseRecOn with
  | nil => intro metadata hmeta; cases hmeta
  | append_singleton before observation ih =>
    have hbefore := ih fun o ho => h o (List.mem_append_left _ ho)
    have hobserved := h observation (List.mem_append_right _ (.head _))
    intro metadata hmeta
    have hold : ∀ m ∈ known before, Sourced m ∧
        Witnessed (before ++ [observation]) m := by
      intro m hm
      obtain ⟨hsourced, hwitnessed⟩ := hbefore m hm
      refine ⟨hsourced, fun field source hsrc => ?_⟩
      obtain ⟨b, o, a, rfl, hfound⟩ := hwitnessed field source hsrc
      exact ⟨b, o, a ++ [observation], by simp, hfound⟩
    have hnew : ∀ field source, Accepted before observation →
        observation.sourceOf field = some source →
        ∃ b o a, before ++ [observation] = b ++ o :: a ∧ Accepted b o ∧ o.source = source ∧
          o.get field = observation.get field := by
      intro field source hacc hsrc
      refine ⟨before, observation, [], rfl, hacc, ?_, rfl⟩
      rw [hobserved.sourceOf] at hsrc
      split_ifs at hsrc
      exact Option.some.inj hsrc
    rw [known_append] at hmeta
    rcases afterObservation_cases (known before) observation with
      ⟨merged, hmerge, hafter⟩ | ⟨-, hafter⟩
    · rw [hafter] at hmeta
      cases hmeta
      rcases mergeRuntimeMetadata_cases (fun m hm => (hbefore m hm).1) hobserved hmerge with
        ⟨-, rfl⟩ | ⟨m, hm, rfl⟩
      · exact ⟨hobserved.sourced, fun field source => hnew field source ⟨_, hmerge⟩⟩
      · obtain ⟨hsourced, hwitnessed⟩ := hold m hm
        refine ⟨hsourced.mergedMetadata hobserved.sourced, fun field source hsrc => ?_⟩
        rw [sourceOf_mergedMetadata hsourced] at hsrc
        rw [get_mergedMetadata]
        rcases selected_eq_or m observation field with heq | heq
        · rw [heq] at hsrc ⊢
          exact hwitnessed field source hsrc
        · rw [heq] at hsrc ⊢
          exact hnew field source ⟨_, hmerge⟩ hsrc
    · rw [hafter] at hmeta
      exact hold metadata hmeta

/-! ### The pin of an identity -/

omit [PyFloat φ] [IsoFormat] [LowerCase] in
/-- A trusted value gives way to an untrusted one, which a document of higher priority holds. -/
def displaces (current : Option (RuntimeMetadata φ)) (incoming : RuntimeMetadata φ) : Bool :=
  current.any fun current => !prefersIncoming current incoming && pinnedFields.any fun field =>
    (pinnedSource incoming field).isSome && (current.get field).isSet &&
      (pinnedSource current field).isNone

/-- No observation that is merged displaces a trusted value. -/
def undisplaced : Option (RuntimeMetadata φ) → List (RuntimeMetadata φ) → Bool
  | _, [] => true
  | current, observation :: observations =>
    (!(mergeRuntimeMetadata current observation).isOk || !displaces current observation) &&
      undisplaced (afterObservation current observation) observations

theorem undisplaced_append (current : Option (RuntimeMetadata φ))
    (before after : List (RuntimeMetadata φ)) :
    undisplaced current (before ++ after) = true ↔
      undisplaced current before = true ∧
        undisplaced (before.foldl afterObservation current) after = true := by
  induction before generalizing current with
  | nil => simp [undisplaced]
  | cons observation before ih =>
    rw [List.cons_append, undisplaced, undisplaced, List.foldl_cons, Bool.and_eq_true,
      Bool.and_eq_true, ih, and_assoc]

/-- A pinned field stays pinned to its value under one more observation. -/
theorem pinned_step (hm : known before = some m) (hsourced : Sourced m)
    (hobserved : Observed observation) (h : Pinned m field value) :
    ∃ m', known (before ++ [observation]) = some m' ∧ Pinned m' field value := by
  rw [known_append]
  rcases afterObservation_cases (known before) observation with
    ⟨merged, hmerge, hafter⟩ | ⟨-, hafter⟩
  · refine ⟨merged, hafter, ?_⟩
    rw [hm] at hmerge
    obtain ⟨-, -, rfl⟩ := (mergeRuntimeMetadata_eq_ok hsourced hobserved.sourced).1 hmerge
    obtain ⟨source, hsrc⟩ := Option.isSome_iff_exists.1 h.2
    refine ⟨?_, Option.isSome_iff_exists.2
      ⟨source, pinnedSource_mergedMetadata hsourced hobserved.sourced hsrc⟩⟩
    rw [get_mergedMetadata, selected, if_pos h.2]
    exact h.1
  · exact ⟨m, hafter.trans hm, h⟩

/-- A pinned field stays pinned to its value under all later observations, by induction on them. -/
theorem pinned_run (hm : known before = some m) (h : Pinned m field value)
    {later : List (RuntimeMetadata φ)}
    (hobserved : ∀ observation ∈ before ++ later, Observed observation) :
    ∃ m', known (before ++ later) = some m' ∧ Pinned m' field value := by
  induction later using List.reverseRecOn with
  | nil => exact ⟨m, by rwa [List.append_nil], h⟩
  | append_singleton later observation ih =>
    rw [← List.append_assoc] at hobserved ⊢
    have hbefore : ∀ o ∈ before ++ later, Observed o :=
      fun o ho => hobserved o (List.mem_append_left _ ho)
    obtain ⟨m', hm', hpin⟩ := ih hbefore
    exact pinned_step hm' (known_sourced_witnessed hbefore m' hm').1
      (hobserved observation (List.mem_append_right _ (.head _))) hpin

theorem supplied_of_pinned (hsourced : Sourced m) (hwitnessed : Witnessed before m)
    (h : Pinned m field value) :
    ∃ b o a, before = b ++ o :: a ∧ Accepted b o ∧ Supplies o field value := by
  obtain ⟨source, hsrc⟩ := Option.isSome_iff_exists.1 h.2
  obtain ⟨hfield, hfound, hauth⟩ := hsourced.pinnedSource_eq.1 hsrc
  obtain ⟨b, o, a, hsplit, hacc, rfl, hv⟩ := hwitnessed field source hfound
  exact ⟨b, o, a, hsplit, hacc, hfield, hauth, hv.trans h.1⟩

/-- **A value that is supplied is pinned**, if it is not displaced. -/
theorem pinned_of_supplies (hsourced : ∀ m ∈ known before, Sourced m)
    (hobserved : Observed observation) (hacc : Accepted before observation)
    (hdisplaces : displaces (known before) observation = false)
    (h : Supplies observation field value) :
    ∃ m pinned, known (before ++ [observation]) = some m ∧ Pinned m field pinned ∧
      sameRuntimeIdentity field pinned value = true ∧
      ((∀ m ∈ known before, ¬ Pinned m field pinned) → pinned = value) := by
  obtain ⟨merged, hmerge⟩ := hacc
  have hafter : known (before ++ [observation]) = some merged := by
    rw [known_append, afterObservation, hmerge]
  have hsupp : Pinned observation field value := hobserved.supplies_iff.1 h
  rcases mergeRuntimeMetadata_cases hsourced hobserved hmerge with ⟨-, rfl⟩ | ⟨m, hm, rfl⟩
  · exact ⟨_, value, hafter, hsupp, sameRuntimeIdentity_self field value, fun _ => rfl⟩
  · have hcur := hsourced m hm
    rw [hm] at hmerge
    obtain ⟨-, hpins, -⟩ := (mergeRuntimeMetadata_eq_ok hcur hobserved.sourced).1 hmerge
    by_cases hpin : (pinnedSource m field).isSome = true
    · obtain ⟨pinned, hv⟩ := hcur.pinned_of_isSome hpin
      obtain ⟨source, hsrc⟩ := Option.isSome_iff_exists.1 hpin
      refine ⟨_, pinned, hafter, ⟨?_, ?_⟩, hpins field h.1 pinned value hv hsupp,
        fun hnone => absurd hv (hnone m hm)⟩
      · rw [get_mergedMetadata, selected, if_pos hpin]
        exact hv.1
      · exact Option.isSome_iff_exists.2
          ⟨source, pinnedSource_mergedMetadata hcur hobserved.sourced hsrc⟩
    · -- the incoming document goes first, or the current one has no value
      have hsel : selected m observation field = observation := by
        rw [selected_of_not_pinned hpin, hsupp.1]
        rcases hprefers : prefersIncoming m observation with _ | _
        · have hset : (m.get field).isSet = false := by
            by_contra hset
            rw [Bool.not_eq_false] at hset
            rw [hm, displaces, Option.any_some, hprefers, Bool.not_false, Bool.true_and,
              List.any_eq_false] at hdisplaces
            refine hdisplaces field h.1 ?_
            rw [hsupp.2, hset, Option.not_isSome_iff_eq_none.1 hpin]
            rfl
          rw [hset]
          rfl
        · rfl
      obtain ⟨source, hsrc⟩ := Option.isSome_iff_exists.1 hsupp.2
      obtain ⟨hfield, hfound, hauth⟩ := hobserved.sourced.pinnedSource_eq.1 hsrc
      refine ⟨_, value, hafter, ⟨?_, Option.isSome_iff_exists.2 ⟨source, ?_⟩⟩,
        sameRuntimeIdentity_self field value, fun _ => rfl⟩
      · rw [get_mergedMetadata, hsel]
        exact hsupp.1
      · refine (hcur.mergedMetadata hobserved.sourced).pinnedSource_eq.2 ⟨hfield, ?_, hauth⟩
        rw [sourceOf_mergedMetadata hcur, hsel]
        exact hfound

/-! ### What a run keeps -/

/-- An identity that a trusted source supplied stays, and is not contradicted.  It is the value
supplied, unless an equal one was supplied before. -/
def IdentityPinned (observations : List (RuntimeMetadata φ)) : Prop :=
  ∀ before observation after field value, observations = before ++ observation :: after →
    Accepted before observation → Supplies observation field value →
    ∃ pinned, sameRuntimeIdentity field pinned value = true ∧
      ((∀ b o a, before = b ++ o :: a → Accepted b o → ¬ Supplies o field pinned) →
        pinned = value) ∧
      ∀ later, later <+: after →
        (∃ metadata, known (before ++ observation :: later) = some metadata ∧
          metadata.get field = .text (some pinned)) ∧
        ∀ next other, Observed next → Supplies next field other →
          sameRuntimeIdentity field value other = false →
          ¬ Accepted (before ++ observation :: later) next ∧
            known (before ++ observation :: later ++ [next]) =
              known (before ++ observation :: later)

/-- Whatever is known has a source for each field that is set and for no other, and the source is
that of an observation that was merged with this value of the field. -/
def SourcesTruthful (observations : List (RuntimeMetadata φ)) : Prop :=
  ∀ before, before <+: observations → ∀ metadata ∈ known before,
    (∀ field, (metadata.sourceOf field).isSome = (metadata.get field).isSet) ∧
      Witnessed before metadata

/-- What was just merged is merged again without a change; only the first observation may be
refused, for native documents that were not looked at before. -/
def MergedAgain (observations : List (RuntimeMetadata φ)) : Prop :=
  ∀ before observation after metadata, observations = before ++ observation :: after →
    mergeRuntimeMetadata (known before) observation = .ok metadata →
    mergeRuntimeMetadata (some metadata) observation = .ok metadata ∨ (known before = none ∧
        mergeRuntimeMetadata (some metadata) observation = .error .storedDocuments)

/-- If no observation displaces what was pinned before, an identity that a trusted source supplied
stays and is not contradicted. -/
theorem identity_pinned (hobserved : ∀ observation ∈ observations, Observed observation)
    (hundisplaced : undisplaced none observations = true) : IdentityPinned observations := by
  rintro before observation _ field _ rfl hacc hsupplies
  have hbefore : ∀ o ∈ before, Observed o := fun o ho => hobserved o (List.mem_append_left _ ho)
  have hobservation : Observed observation := hobserved observation (by simp)
  have hknown := known_sourced_witnessed hbefore
  have hdisplaces : displaces (known before) observation = false := by
    have hstep := ((undisplaced_append none before _).1 hundisplaced).2
    rw [undisplaced, Bool.and_eq_true, Bool.or_eq_true, Bool.not_eq_true', Bool.not_eq_true'] at hstep
    refine hstep.1.resolve_left fun hfalse => ?_
    have htrue := isOk_iff.2 hacc
    rw [known] at htrue
    rw [htrue] at hfalse
    cases hfalse
  obtain ⟨m, pinned, hm, hpin, hsame, hfirst⟩ := pinned_of_supplies
    (fun m hm => (hknown m hm).1) hobservation hacc hdisplaces hsupplies
  refine ⟨pinned, hsame, fun hnone => hfirst fun m' hm' hpin' => ?_, ?_⟩
  · obtain ⟨b, o, a, hsplit, hbaccepted, hbsupplies⟩ :=
      supplied_of_pinned (hknown m' hm').1 (hknown m' hm').2 hpin'
    exact hnone b o a hsplit hbaccepted hbsupplies
  · rintro later ⟨_, rfl⟩
    have hlater : ∀ o ∈ (before ++ [observation]) ++ later, Observed o := by
      intro o ho
      refine hobserved o ?_
      simp only [List.mem_append, List.mem_cons, List.not_mem_nil, or_false] at ho ⊢
      tauto
    obtain ⟨m', hm', hpin'⟩ := pinned_run hm hpin hlater
    rw [List.append_assoc, List.singleton_append] at hm' hlater
    refine ⟨⟨m', hm', hpin'.1⟩, fun next other hnext hother hdifferent => ?_⟩
    have href : ¬ Accepted (before ++ observation :: later) next := by
      rintro ⟨merged, hmerge⟩
      rw [hm'] at hmerge
      obtain ⟨-, hpins, -⟩ := (mergeRuntimeMetadata_eq_ok
        (known_sourced_witnessed hlater m' hm').1 hnext.sourced).1 hmerge
      have hagree := hpins field hother.1 pinned other hpin' (hnext.supplies_iff.1 hother)
      have hvalues := sameRuntimeIdentity_trans (sameRuntimeIdentity_symm hsame) hagree
      rw [hdifferent] at hvalues
      cases hvalues
    refine ⟨href, ?_⟩
    rw [known_append]
    rcases afterObservation_cases (known (before ++ observation :: later)) next with
      ⟨merged, hmerge, -⟩ | ⟨-, hafter⟩
    · exact absurd ⟨merged, hmerge⟩ href
    · exact hafter

/-- What was just merged is merged again without a change; only the first observation may be
refused, for native documents that were not looked at before. -/
theorem merged_again (hobserved : ∀ observation ∈ observations, Observed observation) :
    MergedAgain observations := by
  rintro before observation _ _ rfl hmerge
  have hobservation : Observed observation := hobserved observation (by simp)
  rcases hknown : known before with _ | m
  · rw [hknown] at hmerge
    cases hmerge
    rcases hdocs : nativeDocumentsOf observation with e | _
    · refine Or.inr ⟨rfl, ?_⟩
      have herr : e = .storedDocuments := by
        unfold nativeDocumentsOf at hdocs
        split at hdocs
        · split at hdocs
          · cases hdocs
          · cases hdocs
            rfl
        · cases hdocs
      rw [mergeRuntimeMetadata, validateRuntimeTransition, hdocs, herr]
      rfl
    · exact Or.inl (mergeRuntimeMetadata_first hobservation hdocs)
  · have hsourced := (known_sourced_witnessed
      (fun o ho => hobserved o (List.mem_append_left _ ho)) m hknown).1
    rw [hknown] at hmerge
    exact Or.inl (mergeRuntimeMetadata_again hsourced hobservation.sourced hmerge)

/-- **What a run of merges keeps**, when no trusted value is displaced. -/
theorem runtime_runs_keep (observations : List (RuntimeMetadata φ))
    (hobserved : ∀ observation ∈ observations, Observed observation)
    (hundisplaced : undisplaced none observations = true) :
    IdentityPinned observations ∧ SourcesTruthful observations ∧ MergedAgain observations := by
  refine ⟨identity_pinned hobserved hundisplaced, fun before hinit metadata hmeta => ?_,
    merged_again hobserved⟩
  exact known_sourced_witnessed (fun o ho => hobserved o (hinit.subset ho)) metadata hmeta

end Runs

/-! ### An untrusted identity that stays -/

/-- The lower case of ASCII. -/
@[reducible]
def sampleLower : LowerCase where
  lower := String.toLower

/-- An observation of a source, without its sources. -/
def bareObservation (source : RuntimeSource) (executionId : Option String) : RuntimeMetadata Int where
  schemaVersion := "clio-relay.jarvis-runtime.v1"
  source := source
  observedAt := ⟨1782907200000000, some 0⟩
  executionId := executionId
  pipelineId := some "pipe"
  schedulerProvider := none
  schedulerType := none
  schedulerJobId := none
  schedulerPhase := none
  scriptPath := none
  hostfilePath := none
  outputPath := none
  errorPath := none
  allocatedNodes := []
  packages := []
  terminal := ⟨none, none, none, none, none, none⟩
  fieldSources := []
  details := JsonDict.empty

/-- An observation of a source. -/
def sampleObservation (source : RuntimeSource) (executionId : Option String) : RuntimeMetadata Int :=
  { bareObservation source executionId with
    fieldSources := fieldSourcesOf (bareObservation source executionId) source }

/-- A sidecar that is right about the execution, after an untrusted source that was not and the
word of JARVIS that named none. -/
def displacedRun : List (RuntimeMetadata Int) :=
  [sampleObservation .untrustedCompatibility (some "run-0"), sampleObservation .jarvisMcp none,
    sampleObservation .jarvisSidecar (some "run-1")]

/-- **A trusted identity does not always stay**: the sidecar's is dropped for the untrusted one. -/
theorem displaced_identity_not_pinned :
    ¬ ∀ observations : List (RuntimeMetadata Int),
      (∀ observation ∈ observations, Observed observation) →
        @IdentityPinned Int sampleFloat sampleIsoFormat sampleLower observations ∧
        @SourcesTruthful Int sampleFloat sampleIsoFormat sampleLower observations ∧
        @MergedAgain Int sampleFloat sampleIsoFormat sampleLower observations := by
  intro hall
  obtain ⟨hpin, -, -⟩ := hall displacedRun (by decide)
  have hacc : (@mergeRuntimeMetadata Int sampleFloat sampleIsoFormat sampleLower
      (@known Int sampleFloat sampleIsoFormat sampleLower (displacedRun.take 2))
      (sampleObservation .jarvisSidecar (some "run-1"))).isOk = true := by decide +kernel
  obtain ⟨pinned, hsame, -, hlater⟩ := hpin (displacedRun.take 2)
    (sampleObservation .jarvisSidecar (some "run-1")) [] .executionId "run-1" rfl
    (isOk_iff.1 hacc) ⟨by decide, rfl, rfl⟩
  obtain ⟨⟨metadata, hknown, hv⟩, -⟩ := hlater [] List.prefix_rfl
  have hkept : (@known Int sampleFloat sampleIsoFormat sampleLower displacedRun).map
      RuntimeMetadata.executionId = some (some "run-0") := by decide +kernel
  have hrun : @known Int sampleFloat sampleIsoFormat sampleLower displacedRun = some metadata :=
    hknown
  rw [hrun, Option.map_some] at hkept
  have hid : metadata.executionId = some pinned := FieldValue.text.inj hv
  rw [hid] at hkept
  cases hkept
  have hdifferent : @sameRuntimeIdentity sampleLower .executionId "run-0" "run-1" = false := by
    decide
  rw [hdifferent] at hsame
  cases hsame

/-- The sidecar and JARVIS, in their order of trust. -/
theorem runtime_run_keeps_on_sample :
    @IdentityPinned Int sampleFloat sampleIsoFormat sampleLower
        [sampleObservation .jarvisSidecar (some "run-1"), sampleObservation .jarvisMcp none] ∧
      @SourcesTruthful Int sampleFloat sampleIsoFormat sampleLower
        [sampleObservation .jarvisSidecar (some "run-1"), sampleObservation .jarvisMcp none] ∧
      @MergedAgain Int sampleFloat sampleIsoFormat sampleLower
        [sampleObservation .jarvisSidecar (some "run-1"), sampleObservation .jarvisMcp none] :=
  @runtime_runs_keep Int sampleFloat sampleIsoFormat sampleLower
    [sampleObservation .jarvisSidecar (some "run-1"), sampleObservation .jarvisMcp none]
    (by decide) (by decide +kernel)

end ClioQueue.Jarvis
