/-
# The mirror of a remote generation

`mirror_owner_session_generation_open` removes the closing marker of a generation that is safely
closed, and looks only then whether the generation to be mirrored has been closed itself.  Where it
has, the call is refused with the marker gone.

`MirrorChecked` is what the call has checked before its first write, and `LosesClosing` says when
it is refused after it.  Elsewhere a refused call leaves the session as it was, and everywhere a
call that was stopped can be repeated (`mirror_failure_atomic_iff`).
-/

import ClioQueue.OwnerSessionGenerations

namespace ClioQueue

open Durable Durable.Prog Durable.Files

variable {s t : Store} {S g : String} {label : FilesystemKey} {generation : DurableRecordId}

/-! ### What the mirror checks -/

/-- The arguments of a call are valid. -/
structure MirrorArguments (S g : String) (label : FilesystemKey) (generation : DurableRecordId) :
    Prop where
  nonempty : S ≠ ""
  generation : requireDurableRecordId g "session_generation_id" = .ok generation
  label : ownerSessionLabel S = .ok label

/-- A generation has a closure of the session, without residual resources. -/
def ClosedSafely (s : Store) (S : String) (label : FilesystemKey) (generation : DurableRecordId) :
    Prop :=
  ∃ closure, s.read (.ownerClosure label (closureToken generation)) = some closure ∧
    closure.ownerSessionId = S ∧ closure.sessionGenerationId = some generation ∧
    closure.residualResourceIds.isEmpty = true

/-- What the mirror has checked before its first write: the session has no other active
generation, and the generation of its closing marker is another one, safely closed. -/
structure MirrorChecked (s : Store) (S : String) (label : FilesystemKey)
    (generation : DurableRecordId) : Prop where
  active : ∀ active, s.read (.ownerActive label) = some active →
    active.ownerSessionId = S ∧ active.sessionGenerationId = generation
  closing : ∀ closing, s.read (.ownerClosing label) = some closing →
    closing.ownerSessionId = S ∧ closing.sessionGenerationId ≠ generation ∧
      ClosedSafely s S label closing.sessionGenerationId

/-- The mirror admits the generation: it has no closure. -/
structure MirrorAdmits (s : Store) (S : String) (label : FilesystemKey)
    (generation : DurableRecordId) : Prop where
  checked : MirrorChecked s S label generation
  unclosed : s.read (.ownerClosure label (closureToken generation)) = none

/-- The record of a mirrored generation. -/
def IsMirrored (S : String) (generation : DurableRecordId) (active : OwnerSessionActive) : Prop :=
  active.ownerSessionId = S ∧ active.sessionGenerationId = generation

/-- A store that the mirror leaves after a write: the marker is gone, and the generation may be
recorded as active. -/
def MirrorLeaves (s : Store) (S : String) (label : FilesystemKey) (generation : DurableRecordId)
    (t : Store) : Prop :=
  t = s.unlink (.ownerClosing label) ∨ ∃ active, IsMirrored S generation active ∧
    t = (s.unlink (.ownerClosing label)).write (.ownerActive label) active

theorem mirrorLeaves_closure (other : DurableRecordId) (h : MirrorLeaves s S label generation t) :
    t.read (.ownerClosure label (closureToken other)) =
      s.read (.ownerClosure label (closureToken other)) := by
  rcases h with rfl | ⟨_, -, rfl⟩
  · rw [read_unlink_ne]
  · rw [read_write_ne _, read_unlink_ne]

/-- **What a stopped call leaves admits the generation as before.** -/
theorem MirrorLeaves.admits_iff (h : MirrorLeaves s S label generation t)
    (hchk : MirrorChecked s S label generation) :
    MirrorAdmits t S label generation ↔ MirrorAdmits s S label generation := by
  have hclos : t.read (.ownerClosing label) = none := by
    rcases h with rfl | ⟨active, -, rfl⟩
    · simp
    · rw [read_write_ne _, read_unlink_self]
  have hactive : ∀ active, t.read (.ownerActive label) = some active →
      active.ownerSessionId = S ∧ active.sessionGenerationId = generation := by
    rcases h with rfl | ⟨_, hmirrored, rfl⟩
    · intro active hactive
      rw [read_unlink_ne] at hactive
      exact hchk.active active hactive
    · intro active hactive
      rw [read_write_self] at hactive
      cases hactive
      exact hmirrored
  have hunclosed := mirrorLeaves_closure generation h
  constructor
  · exact fun hadmits => ⟨hchk, hunclosed.symm.trans hadmits.unclosed⟩
  · intro hadmits
    refine ⟨⟨hactive, fun closing hsome => ?_⟩, hunclosed.trans hadmits.unclosed⟩
    rw [hclos] at hsome
    cases hsome

/-! ### What the mirror does -/

theorem validateOwnerSessionActiveRecord_error {active : Option OwnerSessionActive} {e : RelayError}
    (h : validateOwnerSessionActiveRecord S active = .error e) :
    ∃ record, active = some record ∧ record.ownerSessionId ≠ S := by
  rcases active with _ | record
  · cases h
  · refine ⟨record, rfl, fun howner => ?_⟩
    rw [validateOwnerSessionActiveRecord, if_pos howner] at h
    cases h

theorem validateOwnerSessionClosingRecord_error {closing : Option OwnerSessionClosing}
    {e : RelayError} (h : validateOwnerSessionClosingRecord S closing = .error e) :
    ∃ record, closing = some record ∧ record.ownerSessionId ≠ S := by
  rcases closing with _ | record
  · cases h
  · refine ⟨record, rfl, fun howner => ?_⟩
    rw [validateOwnerSessionClosingRecord, if_pos howner] at h
    cases h

theorem ownerSessionId_of_ok {active : OwnerSessionActive} {found : Option DurableRecordId}
    (h : validateOwnerSessionActiveRecord S (some active) = .ok found) :
    active.ownerSessionId = S := by
  by_contra howner
  rw [validateOwnerSessionActiveRecord, if_neg howner] at h
  cases h

section Runs

variable [Entropy] {v : Supply} {E : Post RelayError} {C : Store → Prop}

/-- The last half of the mirror, from a store without a marker. -/
theorem wp_admitMirroredGeneration {active previous : Option DurableRecordId}
    {Q : Post Unit} (hlab : ownerSessionLabel S = .ok label)
    (hclosed : s.read (.ownerClosure label (closureToken generation)) ≠ none → ∀ e, E e s v)
    (hopen : s.read (.ownerClosure label (closureToken generation)) = none → (∀ w, Q () s w) ∧ ∀ record w, IsMirrored S generation record → C (s.write (.ownerActive label) record) ∧ Q () (s.write (.ownerActive label) record) w) :
    wp (admitMirroredGeneration label S generation active previous) C Q E s v := by
  unfold admitMirroredGeneration getOwnerSessionClosed
  simp only [wp_bind, wp_ofExcept, wp_require, read_eq_look, wp_look, wp_pure, hlab]
  refine ⟨?_, fun e he => by cases he⟩
  rintro _ ⟨⟩
  rcases hread : s.read (.ownerClosure label (closureToken generation)) with _ | closure
  · obtain ⟨hkept, hwritten⟩ := hopen hread
    refine ⟨fun _ => ⟨fun _ => ?_, fun hnot => absurd hnot (by simp)⟩,
      fun hnot => absurd hnot (by simp)⟩
    rcases active with _ | active
    · rw [if_neg (by simp)]
      simp only [wp_bind, wp_utcNow, wp_put]
      exact hwritten _ _ ⟨rfl, rfl⟩
    · exact (wp_pure _).2 (hkept _)
  · have hraise := hclosed (by simp [hread])
    exact ⟨fun _ => ⟨fun hnone => absurd hnone (by simp), fun _ => hraise _⟩, fun _ => hraise _⟩

/-- The mirror is refused after it has removed the marker: the generation has a closure. -/
structure LosesClosing (s : Store) (S : String) (label : FilesystemKey)
    (generation : DurableRecordId) : Prop where
  checked : MirrorChecked s S label generation
  closing : s.read (.ownerClosing label) ≠ none
  closed : s.read (.ownerClosure label (closureToken generation)) ≠ none

/-- What a refused call leaves: all as it was, or no marker. -/
def MirrorRefused (s : Store) (S : String) (label : FilesystemKey) (generation : DurableRecordId)
    (t : Store) : Prop :=
  ¬ MirrorAdmits s S label generation ∧
    (t = s ∨ (LosesClosing s S label generation ∧ t = s.unlink (.ownerClosing label)))

omit [Entropy] in
/-- The prior closure of a marker is read, and the marker is let go only where it is safe. -/
theorem wp_priorClosure {Q : Post (Option OwnerSessionClosure)}
    (hlab : ownerSessionLabel S = .ok label)
    (hQ : (∀ closure, s.read (.ownerClosure label (closureToken generation)) = some closure → closure.ownerSessionId = S ∧ closure.sessionGenerationId = some generation) → Q (s.read (.ownerClosure label (closureToken generation))) s v)
    (hE : ¬ ClosedSafely s S label generation → ∀ e, E e s v) :
    wp (getOwnerSessionClosed S generation) C Q E s v := by
  unfold getOwnerSessionClosed
  simp only [wp_bind, wp_ofExcept, wp_require, read_eq_look, wp_look, wp_pure, hlab]
  refine ⟨?_, fun e he => by cases he⟩
  rintro _ ⟨⟩
  refine ⟨fun hall => hQ fun closure hread => ?_, fun hnot => hE ?_ _⟩
  · rw [hread] at hall
    simpa using hall
  · rintro ⟨closure, hread, howner, hgen, -⟩
    rw [hread] at hnot
    simp [howner, hgen] at hnot

/-- **What the mirror does**: every store that it leaves, and what it is refused for. -/
theorem wp_mirrorOwnerSessionGenerationOpen (h : MirrorArguments S g label generation) :
    wp (mirrorOwnerSessionGenerationOpen S g)
      (fun t => MirrorChecked s S label generation ∧ MirrorLeaves s S label generation t)
      (fun _ t _ => MirrorAdmits s S label generation ∧ MirrorLeaves s S label generation t)
      (fun _ t _ => MirrorRefused s S label generation t ∧
        (LosesClosing s S label generation → t = s.unlink (.ownerClosing label))) s v := by
  unfold mirrorOwnerSessionGenerationOpen requireOwnerSessionId
  simp only [wp_bind, wp_require, wp_ofExcept, read_eq_look, wp_look, h.generation, h.label]
  refine ⟨fun _ => ⟨?_, fun e he => by cases he⟩, fun hempty => absurd hempty (by simp [h.nonempty])⟩
  rintro _ ⟨⟩
  refine ⟨?_, fun e he => by cases he⟩
  rintro _ ⟨⟩
  have hunchecked (hnot : ¬ MirrorChecked s S label generation) :
      MirrorRefused s S label generation s ∧ (LosesClosing s S label generation →
        s = s.unlink (.ownerClosing label)) :=
    ⟨⟨fun hadmits => hnot hadmits.checked, .inl rfl⟩, fun hloses => absurd hloses.checked hnot⟩
  refine ⟨fun active hactive => ⟨fun closing hclos => ⟨fun hsame => ?_, fun hother => ?_⟩,
    fun e he => hunchecked fun hchk => ?_⟩, fun e he => hunchecked fun hchk => ?_⟩
  · have hactives : ∀ record, s.read (.ownerActive label) = some record →
        record.ownerSessionId = S ∧ record.sessionGenerationId = generation := by
      intro record hrec
      rw [hrec] at hactive
      obtain rfl := validateOwnerSessionActiveRecord_ok hactive
      exact ⟨ownerSessionId_of_ok hactive, by simpa using hsame⟩
    rcases hread : s.read (.ownerClosing label) with _ | marker
    · rw [hread] at hclos
      cases hclos
      have hchk : MirrorChecked s S label generation :=
        ⟨hactives, fun closing hsome => by rw [hread] at hsome; cases hsome⟩
      have hleft : s = s.unlink (.ownerClosing label) := (Files.unlink_of_missing hread).symm
      refine wp_admitMirroredGeneration h.label (fun hclosed e => ?_) fun hopen => ?_
      · exact ⟨⟨fun hadmits => hclosed hadmits.unclosed, .inl rfl⟩, fun _ => hleft⟩
      · refine ⟨fun w => ⟨⟨hchk, hopen⟩, .inl hleft⟩, fun record w hrec => ?_⟩
        have hwritten : MirrorLeaves s S label generation
            (s.write (.ownerActive label) record) := .inr ⟨record, hrec, by rw [← hleft]⟩
        exact ⟨⟨hchk, hwritten⟩, ⟨hchk, hopen⟩, hwritten⟩
    · rw [hread] at hclos
      obtain rfl := validateOwnerSessionClosingRecord_ok hclos
      have howner : marker.ownerSessionId = S := by
        by_contra hnot
        rw [validateOwnerSessionClosingRecord, if_neg hnot] at hclos
        cases hclos
      simp only [Option.map_some, wp_bind, wp_require, wp_unlink]
      refine wp_priorClosure h.label (fun hident => ⟨fun hsafe => ?_, fun hunsafe => ?_⟩)
        fun hnot e => hunchecked fun hchk => hnot (hchk.closing marker hread).2.2
      · obtain ⟨hne, hclosure⟩ := Bool.and_eq_true_iff.1 hsafe
        have hprior : ClosedSafely s S label marker.sessionGenerationId := by
          obtain ⟨closure, hsome, hempty⟩ := (Option.any_eq_true ..).1 hclosure
          obtain ⟨hid, hgen⟩ := hident closure hsome
          exact ⟨closure, hsome, hid, hgen, hempty⟩
        have hchk : MirrorChecked s S label generation := by
          refine ⟨hactives, fun closing hsome => ?_⟩
          cases hread.symm.trans hsome
          exact ⟨howner, bne_iff_ne.1 hne, hprior⟩
        refine ⟨⟨hchk, .inl rfl⟩, wp_admitMirroredGeneration h.label (fun hclosed e => ?_)
          fun hopen => ?_⟩
        · rw [read_unlink_ne] at hclosed
          have hloses : LosesClosing s S label generation := ⟨hchk, by simp [hread], hclosed⟩
          exact ⟨⟨fun hadmits => hclosed hadmits.unclosed, .inr ⟨hloses, rfl⟩⟩, fun _ => rfl⟩
        · rw [read_unlink_ne] at hopen
          refine ⟨fun w => ⟨⟨hchk, hopen⟩, .inl rfl⟩, fun record w hrec => ?_⟩
          exact ⟨⟨hchk, .inr ⟨record, hrec, rfl⟩⟩, ⟨hchk, hopen⟩, .inr ⟨record, hrec, rfl⟩⟩
      · refine hunchecked fun hchk => ?_
        obtain ⟨-, hne, closure, hsome, -, -, hempty⟩ := hchk.closing marker hread
        simp [hsome, safelyClosed, hempty, hne] at hunsafe
  · refine hunchecked fun hchk => ?_
    rcases hread : s.read (.ownerActive label) with _ | record
    · rw [hread] at hactive
      cases hactive
      simp at hother
    · rw [hread] at hactive
      obtain rfl := validateOwnerSessionActiveRecord_ok hactive
      simp [(hchk.active record hread).2] at hother
  · obtain ⟨record, hrec, howner⟩ := validateOwnerSessionClosingRecord_error he
    exact howner (hchk.closing record hrec).1
  · obtain ⟨record, hrec, howner⟩ := validateOwnerSessionActiveRecord_error he
    exact howner (hchk.active record hrec).1

/-- A call with arguments that are not valid does nothing. -/
theorem mirror_refuses (h : ∀ label generation, ¬ MirrorArguments S g label generation) :
    wp (mirrorOwnerSessionGenerationOpen S g) (fun _ => False) (fun _ _ _ => False)
      (fun _ t _ => t = s) s v := by
  unfold mirrorOwnerSessionGenerationOpen requireOwnerSessionId
  simp only [wp_bind, wp_require, wp_ofExcept]
  refine ⟨fun hnonempty => ⟨fun generation hgen => ⟨fun label hlab => ?_,
    fun _ _ => trivial⟩, fun _ _ => trivial⟩, fun _ => trivial⟩
  exact absurd ⟨bne_iff_ne.1 hnonempty, hgen, hlab⟩ (h label generation)

/-- **The mirror succeeds exactly where it admits the generation.** -/
theorem mirror_succeeds_iff (h : MirrorArguments S g label generation) :
    (mirrorOwnerSessionGenerationOpen S g).answer s v = .ok () ↔
      MirrorAdmits s S label generation := by
  have hrun := (wp_mirrorOwnerSessionGenerationOpen (s := s) (v := v) h).2
  unfold answer
  rcases hres : ((mirrorOwnerSessionGenerationOpen S g).run s v).result with e | _
  · rw [hres] at hrun
    exact ⟨fun hnot => (by cases hnot), fun hadmits => absurd hadmits hrun.1.1⟩
  · rw [hres] at hrun
    exact ⟨fun _ => hrun.1, fun _ => rfl⟩

/-! ### Failure atomicity -/

/-- The records of the session are the same. -/
structure SameSession (S : String) (s t : Store) : Prop where
  active : ∀ label, ownerSessionLabel S = .ok label →
    t.read (.ownerActive label) = s.read (.ownerActive label)
  closing : ∀ label, ownerSessionLabel S = .ok label →
    t.read (.ownerClosing label) = s.read (.ownerClosing label)
  closures : ∀ label, ownerSessionLabel S = .ok label → ∀ generation,
    t.read (.ownerClosure label (closureToken generation)) =
      s.read (.ownerClosure label (closureToken generation))

/-- **A call is failure-atomic**: where it raises, the records of the session are as they were, and
where it has stopped, a repeat succeeds exactly when the call would have. -/
structure MirrorAtomic (S g : String) (s : Store) : Prop where
  unchanged : ∀ (v : Supply) (e : RelayError),
    (mirrorOwnerSessionGenerationOpen S g).answer s v = .error e →
      SameSession S s ((mirrorOwnerSessionGenerationOpen S g).run s v).store
  repeatable : ∀ (v w w' : Supply), ∀ t ∈ (mirrorOwnerSessionGenerationOpen S g).halts s v,
    (mirrorOwnerSessionGenerationOpen S g).answer t w = .ok () ↔
      (mirrorOwnerSessionGenerationOpen S g).answer s w' = .ok ()

/-- The mirror is refused after it has removed the marker of the session. -/
def MirrorLoses (S g : String) (s : Store) : Prop :=
  ∃ label generation, MirrorArguments S g label generation ∧ LosesClosing s S label generation

/-- Wherever a mirror call stops, a repeated call succeeds exactly if the first one does. -/
theorem mirror_repeatable (v w w' : Supply) :
    ∀ t ∈ (mirrorOwnerSessionGenerationOpen S g).halts s v,
      (mirrorOwnerSessionGenerationOpen S g).answer t w = .ok () ↔
        (mirrorOwnerSessionGenerationOpen S g).answer s w' = .ok () := by
  intro t ht
  by_cases hargs : ∃ label generation, MirrorArguments S g label generation
  · obtain ⟨label, generation, h⟩ := hargs
    rw [mirror_succeeds_iff h, mirror_succeeds_iff h]
    refine wp_halts
      (I := fun t => MirrorAdmits t S label generation ↔ MirrorAdmits s S label generation)
      (wp_mono (wp_mirrorOwnerSessionGenerationOpen h) ?_ ?_ ?_) Iff.rfl t ht
    · exact fun t ht => ht.2.admits_iff ht.1
    · exact fun _ t _ ht => ht.2.admits_iff ht.1.checked
    · rintro _ t _ ⟨⟨-, rfl | ⟨hloses, rfl⟩⟩, -⟩
      · exact Iff.rfl
      · exact MirrorLeaves.admits_iff (.inl rfl) hloses.checked
  · have hrefuses (t : Store) (w : Supply) :
        (mirrorOwnerSessionGenerationOpen S g).answer t w ≠ .ok () := by
      intro hans
      have hrun := (mirror_refuses (s := t) (v := w)
        fun label generation h => hargs ⟨label, generation, h⟩).2
      unfold answer at hans
      rw [hans] at hrun
      exact hrun
    exact ⟨fun hans => absurd hans (hrefuses t w), fun hans => absurd hans (hrefuses s w')⟩

/-- **The mirror is failure-atomic exactly where it does not lose the marker.** -/
theorem mirror_failure_atomic_iff (S g : String) (s : Store) :
    MirrorAtomic S g s ↔ ¬ MirrorLoses S g s := by
  constructor
  · rintro hatomic ⟨label, generation, h, hloses⟩
    have hrun := (wp_mirrorOwnerSessionGenerationOpen (s := s) (v := ⟨0, 0⟩) h).2
    cases hres : ((mirrorOwnerSessionGenerationOpen S g).run s ⟨0, 0⟩).result with
    | ok =>
      rw [hres] at hrun
      exact hloses.closed hrun.1.unclosed
    | error e =>
      rw [hres] at hrun
      have hsame := (hatomic.unchanged ⟨0, 0⟩ e hres).closing label h.label
      rw [hrun.2 hloses, read_unlink_self] at hsame
      exact hloses.closing hsame.symm
  · intro hkeeps
    refine ⟨fun v e he => ?_, mirror_repeatable⟩
    suffices hsame : ((mirrorOwnerSessionGenerationOpen S g).run s v).store = s by
      rw [hsame]
      exact ⟨fun _ _ => rfl, fun _ _ => rfl, fun _ _ _ => rfl⟩
    unfold answer at he
    by_cases hargs : ∃ label generation, MirrorArguments S g label generation
    · obtain ⟨label, generation, h⟩ := hargs
      have hrun := (wp_mirrorOwnerSessionGenerationOpen (s := s) (v := v) h).2
      rw [he] at hrun
      rcases hrun.1.2 with hsame | ⟨hloses, -⟩
      · exact hsame
      · exact absurd ⟨label, generation, h, hloses⟩ hkeeps
    · have hrun := (mirror_refuses (s := s) (v := v)
        fun label generation h => hargs ⟨label, generation, h⟩).2
      rw [he] at hrun
      exact hrun

end Runs

/-! ### A marker that is lost -/

/-- Start `gen_a` and close it, and start `gen_b` after it and close it. -/
def closeBoth : List OwnerSessionCall := closeFirst ++ reopenFirst.take 3

/-- **A refused mirror may lose the closing marker**: that of `gen_a`, which was closed before
`gen_b`. -/
theorem refused_mirror_loses_marker :
    ¬ ∀ (S g : String) (s : Store),
      Relation.ReflTransGen (@OwnerSessionCall.Step samplePlatform) Files.empty s →
        @MirrorAtomic sampleEntropy S g s := by
  let := samplePlatform
  let := sampleEntropy
  intro hall
  have hatomic := hall "session" "gen_a" _
    (OwnerSessionCall.nextAll_run sampleSupply closeBoth Files.empty)
  have hraises : ((mirrorOwnerSessionGenerationOpen "session" "gen_a").answer
      (OwnerSessionCall.nextAll closeBoth Files.empty sampleSupply) sampleSupply).isOk = false := by
    decide
  have hmark : ((OwnerSessionCall.nextAll closeBoth Files.empty sampleSupply).read
      (.ownerClosing (.plain "session"))).isSome = true := by decide
  have hlost : (((mirrorOwnerSessionGenerationOpen "session" "gen_a").run
      (OwnerSessionCall.nextAll closeBoth Files.empty sampleSupply) sampleSupply).store.read
        (.ownerClosing (.plain "session"))).isSome = false := by decide
  cases hans : (mirrorOwnerSessionGenerationOpen "session" "gen_a").answer
      (OwnerSessionCall.nextAll closeBoth Files.empty sampleSupply) sampleSupply with
  | ok value =>
    rw [hans] at hraises
    cases hraises
  | error e =>
    have hsame := (hatomic.unchanged sampleSupply e hans).closing (.plain "session") rfl
    rw [hsame, hmark] at hlost
    cases hlost

end ClioQueue
