/-
# Closed generations stay closed

Runs of the owner-session lifecycle, and the invariant `ClosedInactive`: no
generation that has a closure record is the active one.  Every operation keeps
it except in two places.  `prepare_owner_session_start` (and through it
`reopen_owner_session`) does not look for a closure of the candidate it
activates, so a generation that was closed before an intermediate one comes back;
and `set_owner_session_closed` writes the closure before the legacy coverage, and
leaves the generation active when the coverage is refused.
`OwnerSessionCall.Sound` is the condition on a call that excludes both.  No operation
removes a closure (`ClosuresStay`), so that along a sound run a closed generation
is inactive in every later store.
-/

import ClioQueue.OwnerSessionLifecycle

namespace ClioQueue

open Durable Durable.Prog Durable.Files

/-! ### What the operations read -/

section Specs

variable {s : Store} {v : Supply} {C : Store → Prop} {E : Post RelayError}

theorem wp_getOwnerSessionClosed {Q : Post (Option OwnerSessionClosure)}
    {S : String} {generation : DurableRecordId}
    (hQ : ∀ label, ownerSessionLabel S = .ok label →
      Q (s.read (.ownerClosure label (closureToken generation))) s v)
    (hE : ∀ e, E e s v) : wp (getOwnerSessionClosed S generation) C Q E s v := by
  unfold getOwnerSessionClosed
  simp only [wp_bind, wp_ofExcept, read_eq_look, wp_look, wp_require, wp_pure]
  exact ⟨fun label hlab => ⟨fun _ => hQ label hlab, fun _ => hE _⟩, fun e _ => hE e⟩

theorem wp_ownerSessionActiveGeneration {Q : Post (Option DurableRecordId)} {S : String}
    (hQ : ∀ label generation, ownerSessionLabel S = .ok label →
      validateOwnerSessionActiveRecord S (s.read (.ownerActive label)) = .ok generation →
        Q generation s v)
    (hE : ∀ e, E e s v) : wp (ownerSessionActiveGeneration S) C Q E s v := by
  unfold ownerSessionActiveGeneration
  simp only [wp_bind, wp_ofExcept, read_eq_look, wp_look]
  exact ⟨fun label hlab => ⟨fun generation h => hQ label generation hlab h, fun e _ => hE e⟩,
    fun e _ => hE e⟩

end Specs


/-! ### The invariant -/

/-- No generation that has a closure record is active. -/
def ClosedInactive (s : Store) : Prop :=
  ∀ label active, s.read (.ownerActive label) = some active →
    s.read (.ownerClosure label (closureToken active.sessionGenerationId)) = none

theorem validateOwnerSessionActiveRecord_ok {S : String} {active : Option OwnerSessionActive}
    {generation : Option DurableRecordId}
    (h : validateOwnerSessionActiveRecord S active = .ok generation) :
    generation = active.map OwnerSessionActive.sessionGenerationId := by
  rcases active with _ | active
  · cases h; rfl
  · rw [validateOwnerSessionActiveRecord] at h
    split_ifs at h
    cases h
    rfl

theorem validateOwnerSessionClosingRecord_ok {S : String} {closing : Option OwnerSessionClosing}
    {generation : Option DurableRecordId}
    (h : validateOwnerSessionClosingRecord S closing = .ok generation) :
    generation = closing.map OwnerSessionClosing.sessionGenerationId := by
  rcases closing with _ | closing
  · cases h; rfl
  · rw [validateOwnerSessionClosingRecord] at h
    split_ifs at h
    cases h
    rfl

variable {s : Store} {v : Supply}

theorem ClosedInactive.unlinkClosing (hs : ClosedInactive s) (label : FilesystemKey) :
    ClosedInactive (s.unlink (.ownerClosing label)) := by
  intro l active h
  simp only [read_unlink, reduceCtorEq, if_false] at h ⊢
  exact hs l active h

theorem ClosedInactive.activate (hs : ClosedInactive s) {label : FilesystemKey}
    {active : OwnerSessionActive}
    (h : s.read (.ownerClosure label (closureToken active.sessionGenerationId)) = none) :
    ClosedInactive (s.write (.ownerActive label) active) := by
  intro l a ha
  rw [read_write_ne _]
  by_cases hl : l = label
  · subst hl
    rw [read_write_self] at ha
    cases ha
    exact h
  · rw [read_write_ne _ (by simpa using hl)] at ha
    exact hs l a ha

/-- A start activates its candidate: the session has no active generation, and the recorded one is
closing, safely closed, and another one than the candidate; or none is closing and none recorded. -/
def StartSelects (s : Store) (label : FilesystemKey) (recorded : Option String)
    (candidate : String) : Prop :=
  s.read (.ownerActive label) = none ∧
    match s.read (.ownerClosing label) with
    | none => recorded = none
    | some closing => recorded = some closing.sessionGenerationId.value ∧
        candidate ≠ closing.sessionGenerationId.value ∧
        safelyClosed (s.read (.ownerClosure label (closureToken closing.sessionGenerationId))) = true

/-- No start from `s` activates a candidate that has a closure. -/
def CandidateOpen (s : Store) (S : String) (recorded : Option String) (candidate : String) :
    Prop :=
  ∀ label generation, ownerSessionLabel S = .ok label → generation.value = candidate →
    StartSelects s label recorded candidate →
      s.read (.ownerClosure label (closureToken generation)) = none

theorem recordedGeneration_ok {recorded : Option String} {generation : Option DurableRecordId}
    (h : (recorded.mapM fun value => requireDurableRecordId value "recorded_generation_id") =
      .ok generation) :
    recorded = generation.map DurableRecordId.value := by
  rcases recorded with _ | value
  · cases h
    rfl
  · simp only [Option.mapM_some] at h
    rcases hv : requireDurableRecordId value "recorded_generation_id" with e | _
    · rw [hv] at h
      cases h
    · rw [hv] at h
      cases h
      rw [Option.map_some, requireDurableRecordId_ok hv]

section

variable [Entropy]

/-- A start that selects no candidate with a closure keeps the closed generations inactive, wherever
it stops. -/
theorem wp_prepareOwnerSessionStart_closedInactive {S : String} {recorded : Option String}
    {candidate : String} (hs : ClosedInactive s) (hopen : CandidateOpen s S recorded candidate) :
    wp (prepareOwnerSessionStart S recorded candidate) (fun _ => True)
      (fun _ t _ => ClosedInactive t) (fun _ t _ => ClosedInactive t) s v := by
  unfold prepareOwnerSessionStart requireOwnerSessionId
  simp only [wp_bind, wp_require, wp_ofExcept, read_eq_look, wp_look]
  refine ⟨fun _ => ⟨fun recordedId hrecorded => ⟨fun cand hcand => ⟨fun label hlab =>
    ⟨fun active hactive => ⟨fun closing hclos => ?_, fun _ _ => hs⟩, fun _ _ => hs⟩,
    fun _ _ => hs⟩, fun _ _ => hs⟩, fun _ _ => hs⟩, fun _ => hs⟩
  have hactive := validateOwnerSessionActiveRecord_ok hactive
  have hclos := validateOwnerSessionClosingRecord_ok hclos
  have hrecorded := recordedGeneration_ok hrecorded
  have hcand := requireDurableRecordId_ok hcand
  rcases active with _ | active
  · have hnone : s.read (.ownerActive label) = none := by simpa using hactive.symm
    rcases hread : s.read (.ownerClosing label) with _ | found
    · obtain rfl : closing = none := by rw [hclos, hread]; rfl
      simp only [wp_bind, wp_require, wp_utcNow, wp_put, wp_pure, Option.isNone_iff_eq_none]
      refine ⟨fun heq => ⟨trivial, hs.activate (hopen label cand hlab hcand ⟨hnone, ?_⟩)⟩,
        fun _ => hs⟩
      rw [hread, hrecorded, heq]
      rfl
    · obtain rfl : closing = some found.sessionGenerationId := by rw [hclos, hread]; rfl
      simp only [wp_bind, wp_require, wp_utcNow, wp_put, wp_unlink, wp_pure, beq_iff_eq,
        bne_iff_ne]
      refine ⟨fun heq => wp_getOwnerSessionClosed (fun l hl => ⟨fun hsafe => ⟨fun hne => ?_,
        fun _ => hs⟩, fun _ => hs⟩) fun _ => hs, fun _ => hs⟩
      obtain rfl : label = l := Except.ok.inj (hlab.symm.trans hl)
      have hselects : StartSelects s label recorded candidate := by
        refine ⟨hnone, ?_⟩
        rw [hread, hrecorded, heq, ← hcand]
        exact ⟨rfl, fun h => hne (DurableRecordId.eq_of_value h), hsafe⟩
      exact ⟨trivial, trivial,
        (hs.activate (hopen label cand hlab hcand hselects)).unlinkClosing label⟩
  · rcases closing with _ | closing
    · dsimp only
      split_ifs with hrec
      · exact (wp_pure _).2 hs
      · split
        · exact (wp_raise _).2 hs
        · simp only [wp_bind, wp_require, wp_pure]
          exact wp_getOwnerSessionClosed (fun _ _ => ⟨fun _ => hs, fun _ => hs⟩) fun _ => hs
    · simp only [wp_bind, wp_require, wp_unlink, wp_pure]
      exact wp_getOwnerSessionClosed
        (fun _ _ => ⟨fun _ => ⟨trivial, hs.unlinkClosing label⟩, fun _ => hs⟩) fun _ => hs

theorem wp_reopenOwnerSession_closedInactive {S previous generation : String}
    (hs : ClosedInactive s) (hopen : CandidateOpen s S (some previous) generation) :
    wp (reopenOwnerSession S previous generation) (fun _ => True)
      (fun _ t _ => ClosedInactive t) (fun _ t _ => ClosedInactive t) s v := by
  unfold reopenOwnerSession requireOwnerSessionId
  simp only [wp_bind, wp_require, wp_ofExcept]
  refine ⟨fun _ => ⟨fun _ _ => ⟨fun _ _ => ?_, fun _ _ => hs⟩, fun _ _ => hs⟩, fun _ => hs⟩
  exact wp_imp (wp_prepareOwnerSessionStart_closedInactive hs hopen)
    fun _ _ _ h => ⟨fun _ => h, fun _ => h⟩

/-- Admitting a mirrored generation keeps the closed generations inactive, wherever it stops. -/
theorem wp_admitMirroredGeneration_closedInactive {label : FilesystemKey} {S : String}
    {generation : DurableRecordId} (active previous : Option DurableRecordId)
    (hlab : ownerSessionLabel S = .ok label) (hs : ClosedInactive s) :
    wp (admitMirroredGeneration label S generation active previous) (fun _ => True)
      (fun _ t _ => ClosedInactive t) (fun _ t _ => ClosedInactive t) s v := by
  unfold admitMirroredGeneration
  simp only [wp_bind, wp_require]
  refine wp_getOwnerSessionClosed (fun l hl => ⟨fun hclosure => ?_, fun _ => hs⟩) fun _ => hs
  obtain rfl : label = l := Except.ok.inj (hlab.symm.trans hl)
  split_ifs
  · exact (wp_pure _).2 hs
  · simp only [wp_bind, wp_utcNow, wp_put]
    exact ⟨trivial, hs.activate (by simpa using hclosure)⟩

/-- Mirroring a generation as open keeps the closed generations inactive, wherever it stops. -/
theorem wp_mirrorOwnerSessionGenerationOpen_closedInactive (S g : String) (hs : ClosedInactive s) :
    wp (mirrorOwnerSessionGenerationOpen S g) (fun _ => True) (fun _ t _ => ClosedInactive t)
      (fun _ t _ => ClosedInactive t) s v := by
  unfold mirrorOwnerSessionGenerationOpen requireOwnerSessionId
  simp only [wp_bind, wp_require, wp_ofExcept, read_eq_look, wp_look]
  refine ⟨fun _ => ⟨fun generation hg => ⟨fun label hlab => ⟨fun active hactive =>
    ⟨fun closing hclos => ⟨fun _ => ?_, fun _ => hs⟩, fun _ _ => hs⟩,
    fun _ _ => hs⟩, fun _ _ => hs⟩, fun _ _ => hs⟩, fun _ => hs⟩
  rcases closing with _ | closing
  · exact wp_admitMirroredGeneration_closedInactive active none hlab hs
  · simp only [wp_bind, wp_require, wp_unlink]
    exact wp_getOwnerSessionClosed (fun _ _ => ⟨fun _ => ⟨trivial,
      wp_admitMirroredGeneration_closedInactive active (some closing) hlab
        (hs.unlinkClosing label)⟩, fun _ => hs⟩) fun _ => hs

/-- Marking a generation as closing activates none, so the closed ones stay inactive. -/
theorem wp_setOwnerSessionClosing_closedInactive (S g : String) (operationId : Option String)
    (policy : CleanupPolicy) (hs : ClosedInactive s) :
    wp (setOwnerSessionClosing S g operationId policy) (fun _ => True)
      (fun _ t _ => ClosedInactive t) (fun _ t _ => ClosedInactive t) s v := by
  have hconf : Confined (fun p => ∃ label, p = .ownerClosing label)
      (setOwnerSessionClosing S g operationId policy) := by
    unfold setOwnerSessionClosing requireOwnerSessionId ownerSessionActiveGeneration
      cleanupOperationId
    repeat' first
      | apply Confined.bind
      | apply Confined.require
      | apply Confined.ofExcept
      | apply Confined.look
      | apply Confined.draw
      | apply Confined.pure
      | exact confined_put _ ⟨_, rfl⟩
      | intro _
      | split
  have hkeep : ∀ t, Agree (fun p => ∃ label, p = .ownerClosing label) s t →
      ClosedInactive t := by
    intro t ht label active h
    rw [ht _ (by simp)] at h ⊢
    exact hs label active h
  exact hconf.wp (fun _ _ => trivial) (fun _ t _ h => hkeep t h) (fun _ t _ h => hkeep t h)

end

/-! ### Closures stay -/

/-- Every closure record of `s` is still there in `t`. -/
def ClosuresStay (s t : Store) : Prop :=
  ∀ label token, s.read (.ownerClosure label token) ≠ none →
    t.read (.ownerClosure label token) ≠ none

theorem ClosuresStay.refl (s : Store) : ClosuresStay s s := fun _ _ h => h

theorem ClosuresStay.trans {t u : Store} (h : ClosuresStay s t) (h' : ClosuresStay t u) :
    ClosuresStay s u := fun label token hclosed => h' label token (h label token hclosed)

theorem closuresStay_of_agree {A : Path → Prop} {t : Store} (h : Agree A s t)
    (hA : ∀ label token, ¬ A (.ownerClosure label token)) : ClosuresStay s t := by
  intro label token hclosed
  rwa [h _ (hA label token)]

theorem closuresStay_write (label : FilesystemKey) (token : RefToken)
    (closure : OwnerSessionClosure) :
    ClosuresStay s (s.write (.ownerClosure label token) closure) := by
  intro l k hclosed
  by_cases hp : Path.ownerClosure l k = .ownerClosure label token
  · cases hp
    rw [read_write_self]
    exact Option.some_ne_none _
  · rwa [read_write_ne _ hp]

/-! ### Closing a generation -/

/-- Removing the active record restores the invariant that a new closure broke. -/
theorem ClosedInactive.close (hs : ClosedInactive s) {label : FilesystemKey} {t : Store}
    (h : Agree (fun p => (∃ g, p = .ownerClosure label g) ∨ p = .ownerLegacyClosure label) s t) :
    ClosedInactive (t.unlink (.ownerActive label)) := by
  intro l active ha
  rw [read_unlink_ne]
  by_cases hl : l = label
  · subst hl
    simp at ha
  · rw [read_unlink_ne (by simpa using hl), h _ (by simp)] at ha
    rw [h _ (by simpa using hl)]
    exact hs l active ha

theorem safeLegacyJobIds_ok : ∀ {legacy : List String} {ids : List DurableRecordId},
    safeLegacyJobIds legacy = .ok ids → ids.map DurableRecordId.value = legacy
  | [], ids, h => by
      cases h
      rfl
  | id :: legacy, ids, h => by
      rw [safeLegacyJobIds] at h
      split_ifs at h with hid
      rcases hrest : safeLegacyJobIds legacy with e | _
      · rw [hrest] at h
        cases h
      · rw [hrest] at h
        cases h
        rw [List.map_cons, safeLegacyJobIds_ok hrest]

theorem checkLegacyCoverage_readOnly (S : String) (jobId : DurableRecordId) :
    ReadOnly (checkLegacyCoverage S jobId) := by
  unfold checkLegacyCoverage
  refine Prog.ReadOnly.bind (Prog.ReadOnly.look _) fun found => ?_
  split
  · exact Prog.ReadOnly.raise _
  · exact Prog.ReadOnly.require _ _

section

variable [Platform]

/-- The legacy coverage of a closure can be recorded: none is asked for, or the
session has none yet and the record fits, or it has exactly this one. -/
def LegacyCoverageOpen (s : Store) (label : FilesystemKey) (S : String)
    (generation : DurableRecordId) (legacyJobIds : List DurableRecordId) : Prop :=
  legacyJobIds = [] ∨ match s.read (.ownerLegacyClosure label) with
    | none => ∀ closedAt,
        Platform.ownerClosureFits (legacyClosure S generation legacyJobIds closedAt) = true
    | some existing => existing = legacyClosure S generation legacyJobIds existing.closedAt

/-- Covering legacy jobs writes only the coverage of the session, and succeeds if that coverage is
open to all of them. -/
theorem wp_coverLegacyJobs [Entropy] {C : Store → Prop} {Q : Post Unit}
    {E : Post RelayError} {label : FilesystemKey} {S : String}
    {generation : DurableRecordId} {ids : List DurableRecordId}
    (hQ : ∀ t w, Agree (· = .ownerLegacyClosure label) s t → C t ∧ Q () t w)
    (hE : ¬ LegacyCoverageOpen s label S generation ids → ∀ e w, E e s w) :
    wp (coverLegacyJobs label S generation ids) C Q E s v := by
  unfold coverLegacyJobs
  split_ifs with hids
  · exact (wp_pure _).2 (hQ s v (Agree.refl _ s)).2
  · simp only [wp_bind, wp_utcNow, read_eq_look, wp_look]
    have hne : ids ≠ [] := by simpa using hids
    unfold writeImmutableOwnerSessionClosure
    rcases hl : s.read (.ownerLegacyClosure label) with _ | _
    · simp only [wp_bind, wp_putWithin, wp_pure]
      refine ⟨fun _ => hQ _ _ (agree_write (A := (· = .ownerLegacyClosure label)) rfl s _), fun hfits => hE ?_ _ _⟩
      rintro (h | h)
      · exact hne h
      · rw [hl] at h
        rw [h] at hfits
        cases hfits
    · simp only [wp_bind, wp_require, wp_pure, beq_iff_eq, beq_eq_false_iff_ne]
      refine ⟨fun _ => (hQ s _ (Agree.refl _ s)).2, fun hdiff => hE ?_ _ _⟩
      rintro (h | h)
      · exact hne h
      · rw [hl] at h
        exact hdiff h


/-- A closing writes the first closure of its generation: the generation is the closing and the active
one of the session, and the legacy ids are sorted and come without residual resources. -/
structure ClosesFirst (s : Store) (label : FilesystemKey) (S : String) (id : DurableRecordId)
    (residual legacy : List String) : Prop where
  closing : ∃ closing, s.read (.ownerClosing label) = some closing ∧
    closing.ownerSessionId = S ∧ closing.sessionGenerationId = id
  active : (s.read (.ownerActive label)).map OwnerSessionActive.sessionGenerationId = some id
  first : s.read (.ownerClosure label (closureToken id)) = none
  sorted : sortedUnique legacy = true ∧ legacy.length ≤ 1000
  verified : legacy = [] ∨ residual = []

/-- A first closure of the generation is not left without its legacy coverage. -/
def ClosureOpen (s : Store) (S generation : String) (residual legacy : List String) : Prop :=
  ∀ label id ids, ownerSessionLabel S = .ok label → id.value = generation →
    ids.map DurableRecordId.value = legacy → ClosesFirst s label S id residual legacy →
      LegacyCoverageOpen s label S id ids

/-- Closing a generation whose closure is open keeps the closed generations inactive, and every
closure record that there was stays, wherever the call stops. -/
theorem wp_setOwnerSessionClosed_closedInactive [Entropy] (S g : String) (residual legacy : List String)
    (hs : ClosedInactive s)
    (hopen : ClosureOpen s S g residual legacy) :
    wp (setOwnerSessionClosed S g residual legacy) (fun _ => True)
      (fun _ t _ => ClosedInactive t ∧ ClosuresStay s t)
      (fun _ t _ => ClosedInactive t ∧ ClosuresStay s t) s v := by
  have hsame : ClosedInactive s ∧ ClosuresStay s s := ⟨hs, .refl s⟩
  unfold setOwnerSessionClosed requireOwnerSessionId
  simp only [wp_bind, wp_require, wp_ofExcept, read_eq_look, wp_look, wp_utcNow]
  refine ⟨fun _ => ⟨fun generation hg => ⟨fun hsorted => ⟨fun hlen => ⟨fun ids hids => ⟨fun hres =>
    ⟨fun label hlab => ⟨fun hclosing => ⟨fun howner => ⟨fun hgen => ⟨fun closure _ => ?_,
    fun _ _ => hsame⟩, fun _ => hsame⟩, fun _ => hsame⟩, fun _ => hsame⟩, fun _ _ => hsame⟩,
    fun _ => hsame⟩, fun _ _ => hsame⟩, fun _ => hsame⟩, fun _ => hsame⟩, fun _ _ => hsame⟩,
    fun _ => hsame⟩
  have hids := safeLegacyJobIds_ok hids
  refine (Prog.ReadOnly.each _ fun _ _ => checkLegacyCoverage_readOnly S _).wp
    (fun _ w => ?_) fun _ _ => hsame
  refine wp_ownerSessionActiveGeneration (fun l active hl hactive => ?_) fun _ => hsame
  obtain rfl : label = l := Except.ok.inj (hlab.symm.trans hl)
  refine ⟨fun hst => ?_, fun _ => hsame⟩
  have hactive := validateOwnerSessionActiveRecord_ok hactive
  unfold writeImmutableOwnerSessionClosure
  have hcleared : ∀ t : Store, ClosuresStay t (t.unlink (.ownerActive label)) := fun t =>
    closuresStay_of_agree (agree_unlink (A := (· = .ownerActive label)) rfl t) (by simp)
  rcases hclosure : s.read (.ownerClosure label (closureToken generation)) with _ | _
  · simp only [wp_bind, wp_putWithin, wp_pure, wp_unlink]
    refine ⟨fun _ => ⟨trivial, wp_coverLegacyJobs (fun t _ ht => ⟨trivial, trivial, ?_⟩)
      fun href => (href ?_).elim⟩, fun _ => hsame⟩
    · refine ⟨hs.close (Agree.trans ?_ (ht.mono fun p hp => .inr hp)),
        ((closuresStay_write _ _ _).trans (closuresStay_of_agree ht (by simp))).trans (hcleared t)⟩
      exact agree_write (.inl ⟨_, rfl⟩) s _
    · obtain ⟨found, hfound⟩ := Option.isSome_iff_exists.1 hclosing
      rw [hfound, Option.all_some, beq_iff_eq] at howner hgen
      rw [hclosure, Option.isSome_none, Bool.or_false, Bool.and_eq_true, Bool.or_eq_true,
        beq_iff_eq] at hst
      have hsome : active = some generation := by
        rcases hst with ⟨hnone | hsome, hpres⟩
        · rw [Option.isNone_iff_eq_none.1 hnone] at hpres
          cases hpres
        · exact hsome
      have hcover := hopen label generation ids hlab (requireDurableRecordId_ok hg) hids
        { closing := ⟨found, hfound, howner, hgen⟩
          active := hactive.symm.trans hsome
          first := hclosure
          sorted := ⟨hsorted, of_decide_eq_true hlen⟩
          verified := by
            rw [Bool.or_eq_true, List.isEmpty_iff, List.isEmpty_iff] at hres
            exact hres.imp_left fun h => by rw [← hids, h]; rfl }
      unfold LegacyCoverageOpen at hcover ⊢
      rwa [read_write_ne _]
  · simp only [wp_bind, wp_require, wp_pure, wp_unlink]
    refine ⟨fun _ => wp_coverLegacyJobs (fun t _ ht => ⟨trivial, trivial, ?_⟩)
      fun _ _ _ => hsame, fun _ => hsame⟩
    exact ⟨hs.close (ht.mono fun p hp => .inr hp),
      (closuresStay_of_agree ht (by simp)).trans (hcleared t)⟩

/-! ### Runs -/

/-- A call of the owner-session lifecycle. -/
inductive OwnerSessionCall where
  | prepareStart (ownerSessionId : String) (recorded : Option String) (candidate : String)
  | reopen (ownerSessionId previous generation : String)
  | setClosing (ownerSessionId generation : String) (operationId : Option String)
      (policy : CleanupPolicy)
  | setClosed (ownerSessionId generation : String) (residual legacy : List String)
  | mirrorOpen (ownerSessionId generation : String)

namespace OwnerSessionCall

/-- The program of a call. -/
def op [Entropy] : OwnerSessionCall → Op Unit
  | prepareStart S recorded candidate =>
    prepareOwnerSessionStart S recorded candidate >>= fun _ => pure ()
  | reopen S previous generation => reopenOwnerSession S previous generation
  | setClosing S generation operationId policy =>
    setOwnerSessionClosing S generation operationId policy >>= fun _ => pure ()
  | setClosed S generation residual legacy =>
    setOwnerSessionClosed S generation residual legacy >>= fun _ => pure ()
  | mirrorOpen S generation => mirrorOwnerSessionGenerationOpen S generation

/-- A call that does not bring a closed generation back: a start does not select a
candidate that has a closure, and the legacy coverage of a first closure can be
recorded. -/
def Sound (s : Store) : OwnerSessionCall → Prop
  | prepareStart S recorded candidate => CandidateOpen s S recorded candidate
  | reopen S previous generation => CandidateOpen s S (some previous) generation
  | setClosed S generation residual legacy => ClosureOpen s S generation residual legacy
  | setClosing .. | mirrorOpen .. => True

/-- The store a call leaves. -/
def next [Entropy] (call : OwnerSessionCall) (s : Store) (v : Supply) : Store := (call.op.run s v).store

/-- The transition records of the owner sessions. -/
def TransitionPath (p : Path) : Prop := ∃ label, p = .ownerActive label ∨ p = .ownerClosing label

/-- Only a closing writes closures. -/
theorem confined_op [Entropy] (call : OwnerSessionCall)
    (h : ∀ S generation residual legacy, call ≠ .setClosed S generation residual legacy) :
    Confined TransitionPath call.op := by
  rcases call with _ | _ | _ | ⟨S, generation, residual, legacy⟩ | _
  case setClosed => exact absurd rfl (h S generation residual legacy)
  all_goals
    unfold op
    try unfold reopenOwnerSession
    try unfold prepareOwnerSessionStart
    try unfold setOwnerSessionClosing ownerSessionActiveGeneration cleanupOperationId
    try unfold mirrorOwnerSessionGenerationOpen admitMirroredGeneration
    try unfold getOwnerSessionClosed
    unfold requireOwnerSessionId
    repeat' first
      | apply Confined.bind
      | apply Confined.require
      | apply Confined.ofExcept
      | apply Confined.look
      | apply Confined.draw
      | apply Confined.pure
      | apply Confined.raise
      | exact confined_put _ ⟨_, .inl rfl⟩
      | exact confined_put _ ⟨_, .inr rfl⟩
      | exact confined_unlink ⟨_, .inr rfl⟩
      | intro _
      | split

/-- **One sound call keeps the invariant and the closures**, whether it returns or raises. -/
theorem closed_next [Entropy] (call : OwnerSessionCall) (hs : ClosedInactive s)
    (hsound : call.Sound s) : ClosedInactive (call.next s v) ∧ ClosuresStay s (call.next s v) := by
  have hstay : (∀ S generation residual legacy,
      call ≠ .setClosed S generation residual legacy) → ClosuresStay s (call.next s v) := fun h =>
    wp_store ((confined_op call h).wp (fun _ _ => trivial)
      (fun _ _ _ ht => closuresStay_of_agree ht fun _ _ hp => by simp [TransitionPath] at hp)
      (fun _ _ _ ht => closuresStay_of_agree ht fun _ _ hp => by simp [TransitionPath] at hp))
  cases call with
  | prepareStart S recorded candidate =>
    refine ⟨wp_store (I := ClosedInactive) (C := fun _ => True) ?_, hstay (by simp)⟩
    simp only [op, wp_bind, wp_pure]
    exact wp_prepareOwnerSessionStart_closedInactive hs hsound
  | reopen =>
    exact ⟨wp_store (wp_reopenOwnerSession_closedInactive hs hsound), hstay (by simp)⟩
  | setClosing S generation operationId policy =>
    refine ⟨wp_store (I := ClosedInactive) (C := fun _ => True) ?_, hstay (by simp)⟩
    simp only [op, wp_bind, wp_pure]
    exact wp_setOwnerSessionClosing_closedInactive S generation operationId policy hs
  | setClosed S generation residual legacy =>
    refine wp_store (I := fun t => ClosedInactive t ∧ ClosuresStay s t) (C := fun _ => True) ?_
    simp only [op, wp_bind, wp_pure]
    exact wp_setOwnerSessionClosed_closedInactive S generation residual legacy hs hsound
  | mirrorOpen S generation =>
    exact ⟨wp_store (wp_mirrorOwnerSessionGenerationOpen_closedInactive S generation hs),
      hstay (by simp)⟩

/-- One call, run to its end from `s`. -/
def Step (s t : Store) : Prop :=
  ∃ (_ : Entropy) (call : OwnerSessionCall) (v : Supply), t = call.next s v

/-- The store a list of calls leaves. -/
def nextAll [Entropy] (calls : List OwnerSessionCall) (s : Store) (v : Supply) : Store :=
  calls.foldl (fun s call => call.next s v) s

theorem nextAll_run [Entropy] (v : Supply) :
    ∀ (calls : List OwnerSessionCall) (s : Store), Relation.ReflTransGen Step s (nextAll calls s v)
  | [], _ => .refl
  | call :: calls, s => .head ⟨_, call, v, rfl⟩ (nextAll_run v calls (call.next s v))

/-- One sound call, run to its end from `s`. -/
def SoundStep (s t : Store) : Prop :=
  ∃ (_ : Entropy) (call : OwnerSessionCall) (v : Supply), call.Sound s ∧ t = call.next s v

end OwnerSessionCall

/-- `generation` is the active generation of the session. -/
def IsActiveGeneration (s : Store) (S : String) (generation : DurableRecordId) : Prop :=
  ∃ label active, ownerSessionLabel S = .ok label ∧ s.read (.ownerActive label) = some active ∧
    active.sessionGenerationId = generation

/-- The session's generation has a closure record. -/
def HasClosure (s : Store) (S : String) (generation : DurableRecordId) : Prop :=
  ∃ label, ownerSessionLabel S = .ok label ∧
    s.read (.ownerClosure label (closureToken generation)) ≠ none

/-- **What a run of sound calls keeps.** -/
theorem closed_of_run {s t : Store} (hs : ClosedInactive s)
    (hrun : Relation.ReflTransGen OwnerSessionCall.SoundStep s t) :
    ClosedInactive t ∧ ClosuresStay s t := by
  induction hrun with
  | refl => exact ⟨hs, .refl s⟩
  | tail _ hstep ih =>
    obtain ⟨_, call, v, hsound, rfl⟩ := hstep
    have hnext := call.closed_next (v := v) ih.1 hsound
    exact ⟨hnext.1, ih.2.trans hnext.2⟩

/-- **A closed generation is never active again**, along every run of sound calls from a store
without active owner sessions: once it has a closure record, no later store has it active. -/
theorem closed_generation_never_active {s t u : Store}
    (hs : ∀ label, s.read (.ownerActive label) = none)
    (hrun : Relation.ReflTransGen OwnerSessionCall.SoundStep s t)
    (hlater : Relation.ReflTransGen OwnerSessionCall.SoundStep t u) (S : String)
    (generation : DurableRecordId) (hclosed : HasClosure t S generation) :
    ¬ IsActiveGeneration u S generation := by
  have hnone : ClosedInactive s := by
    intro label active h
    rw [hs] at h
    cases h
  obtain ⟨hinv, hstay⟩ := closed_of_run (closed_of_run hnone hrun).1 hlater
  rintro ⟨label, active, hlab, hactive, rfl⟩
  obtain ⟨label', hlab', hclosure⟩ := hclosed
  obtain rfl : label = label' := Except.ok.inj (hlab.symm.trans hlab')
  exact hstay label _ hclosure (hinv label active hactive)

end

/-! ### A generation that comes back -/

/-- A generation of the sample session. -/
def generationA : DurableRecordId := ⟨"gen_a", by decide⟩

/-- Start `gen_a` and close it. -/
def closeFirst : List OwnerSessionCall :=
  [.prepareStart "session" none "gen_a",
    .setClosing "session" "gen_a" none ⟨false, false, false⟩,
    .setClosed "session" "gen_a" [] []]

/-- Start `gen_b`, close it, and start `gen_a` again. -/
def reopenFirst : List OwnerSessionCall :=
  [.prepareStart "session" (some "gen_a") "gen_b",
    .setClosing "session" "gen_b" none ⟨false, false, false⟩,
    .setClosed "session" "gen_b" [] [],
    .prepareStart "session" (some "gen_b") "gen_a"]

/-- **The third start activates a closed generation.** -/
theorem closed_generation_active_again :
    ∃ s t, Relation.ReflTransGen (@OwnerSessionCall.Step samplePlatform) Files.empty s ∧
      HasClosure s "session" generationA ∧
      Relation.ReflTransGen (@OwnerSessionCall.Step samplePlatform) s t ∧
      IsActiveGeneration t "session" generationA := by
  let := samplePlatform
  let := sampleEntropy
  have hactive : ((OwnerSessionCall.nextAll reopenFirst
      (OwnerSessionCall.nextAll closeFirst Files.empty sampleSupply) sampleSupply).read
        (.ownerActive (.plain "session"))).map OwnerSessionActive.sessionGenerationId =
      some generationA := by decide
  obtain ⟨active, hread, hgen⟩ := Option.map_eq_some_iff.1 hactive
  exact ⟨_, _, OwnerSessionCall.nextAll_run sampleSupply closeFirst Files.empty,
    ⟨.plain "session", rfl, by decide⟩,
    OwnerSessionCall.nextAll_run sampleSupply reopenFirst _,
    ⟨.plain "session", active, rfl, hread, hgen⟩⟩

/-- The calls that close `gen_a` are sound, and so is the start of `gen_b` after them, which leaves
`gen_a` inactive. -/
theorem closed_generation_never_active_next :
    let _ := samplePlatform
    let _ := sampleEntropy
    let closed := OwnerSessionCall.nextAll closeFirst Files.empty sampleSupply
    HasClosure closed "session" generationA ∧
      ¬ IsActiveGeneration (OwnerSessionCall.nextAll (reopenFirst.take 1) closed sampleSupply)
        "session" generationA := by
  let := samplePlatform
  let := sampleEntropy
  have hclosure : HasClosure (OwnerSessionCall.nextAll closeFirst Files.empty sampleSupply)
      "session" generationA := ⟨.plain "session", rfl, by decide⟩
  refine ⟨hclosure, closed_generation_never_active (s := Files.empty) (fun _ => rfl) ?_
    (.single ⟨_, .prepareStart "session" (some "gen_a") "gen_b", sampleSupply, ?_, rfl⟩) _ _
    hclosure⟩
  · refine .head ⟨_, .prepareStart "session" none "gen_a", sampleSupply, ?_, rfl⟩
      (.head ⟨_, .setClosing "session" "gen_a" none ⟨false, false, false⟩, sampleSupply, trivial,
        rfl⟩ (.single ⟨_, .setClosed "session" "gen_a" [] [], sampleSupply, ?_, rfl⟩))
    · exact fun _ _ _ _ _ => rfl
    · rintro _ _ _ _ _ hids _
      exact .inl (List.map_eq_nil_iff.1 hids)
  · rintro label generation hlabel hgeneration -
    obtain rfl : label = .plain "session" := (Except.ok.inj hlabel).symm
    obtain rfl : generation = ⟨"gen_b", by decide⟩ := DurableRecordId.eq_of_value hgeneration
    decide

end ClioQueue
