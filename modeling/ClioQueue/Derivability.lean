/-
# When indexes can be derived

The refusals of the two derivations that a job write makes: an owner-session
membership is refused when the identity is malformed or the generation is full
(`MembershipReady`), and a scheduler source when its metadata is out of bounds, a
record exceeds its byte limit, or more gateway sessions are indexed under one of
its scheduler ids than a reader accepts (`SchedulerReady`).  A derivation
succeeds exactly when it is ready, and one that was stopped stays ready.
-/

import ClioQueue.Footprints

namespace ClioQueue

open Durable Durable.Prog Durable.Files

/-! ### Memberships -/

/-- The memberships of a generation. -/
def isMember (ownerSessionId : String) (generation : Option DurableRecordId) (p : Path)
    (_ : Content p) : Bool :=
  match p with
  | .ownerSessionJob owner gen _ =>
    decide (owner = stableRefToken [ownerSessionId] ∧
      gen = generation.map fun generation => stableRefToken [generation.value])
  | _ => false

/-- The number of members of a generation. -/
def memberCount (s : Store) (ownerSessionId : String) (generation : Option DurableRecordId) : Nat :=
  s.count (isMember ownerSessionId generation)

/-- The membership of a job can be recorded. -/
def MembershipReady (s : Store) (job : RelayJob) : Prop :=
  match ownerSessionIdentity job.metadata true with
  | .error _ => False
  | .ok none => True
  | .ok (some (ownerSessionId, generation)) =>
    (ownerSessionId.length ≤ 256 ∧ 1 ≤ job.cluster.length ∧ job.cluster.length ≤ 256) ∧
      ((s.read (membershipPath ownerSessionId generation job.jobId)).isSome ∨
        memberCount s ownerSessionId generation < maxActiveJobRecords)

/-- The membership of a job has been recorded, if it has one, and nothing else. -/
def MembershipKept (job : RelayJob) (s t : Store) : Prop :=
  match ownerSessionIdentity job.metadata true with
  | .error _ => t = s
  | .ok none => t = s
  | .ok (some (ownerSessionId, generation)) =>
    ∃ membership, t = s.write (membershipPath ownerSessionId generation job.jobId) membership

section

variable {C : Store → Prop} {Q : Post Unit}
  {E : Post RelayError} {s t : Store} {v : Supply} {job : RelayJob}

/-- The membership of a job is recorded unless its metadata is refused, a field is out of bounds or
the generation is full; a failure leaves the store as it was. -/
theorem wp_syncOwnerSessionJobMembership (hC : ∀ t, MembershipKept job s t → C t)
    (hQ : ∀ t, MembershipReady s job → MembershipKept job s t → Q () t v)
    (hE : ¬ MembershipReady s job → ∀ err, E err s v) :
    wp (syncOwnerSessionJobMembership job) C Q E s v := by
  unfold syncOwnerSessionJobMembership
  rcases hident : ownerSessionIdentity job.metadata true with err | identity
  · have hnot : ¬ MembershipReady s job := by simp [MembershipReady, hident]
    simp [hE hnot]
  rcases identity with _ | ⟨ownerSessionId, generation⟩
  · simp only [wp_bind, wp_ofExcept, Except.ok.injEq, forall_eq', wp_pure,
      reduceCtorEq, false_imp_iff, implies_true, and_true]
    exact hQ s (by simp [MembershipReady, hident]) (by simp [MembershipKept, hident])
  have hready : MembershipReady s job ↔
      (ownerSessionId.length ≤ 256 ∧ 1 ≤ job.cluster.length ∧ job.cluster.length ≤ 256) ∧
        ((s.read (membershipPath ownerSessionId generation job.jobId)).isSome ∨
          memberCount s ownerSessionId generation < maxActiveJobRecords) := by
    simp [MembershipReady, hident]
  have hcnt : membershipCount ownerSessionId generation =
      look fun s => memberCount s ownerSessionId generation := rfl
  simp only [wp_bind, wp_ofExcept, Except.ok.injEq, forall_eq', reduceCtorEq,
    false_imp_iff, implies_true, and_true, membershipPresent, wp_present, hcnt, wp_look,
    wp_require]
  constructor
  · intro membership hmemb
    unfold ownerSessionJobMembership at hmemb
    split_ifs at hmemb with hbounds
    have hkept : MembershipKept job s
        (s.write (membershipPath ownerSessionId generation job.jobId) membership) := by
      simp only [MembershipKept, hident]
      exact ⟨membership, rfl⟩
    constructor
    · intro hroom
      rw [Bool.or_eq_true, decide_eq_true_eq] at hroom
      exact wp_put.2 ⟨hC _ hkept, hQ _ (hready.2 ⟨hbounds, hroom⟩) hkept⟩
    · intro hfull
      refine hE (fun h => ?_) _
      rw [Bool.or_eq_false_iff, decide_eq_false_iff_not] at hfull
      rcases (hready.1 h).2 with hfound | hroom
      · rw [hfull.1] at hfound
        cases hfound
      · exact hfull.2 hroom
  · intro err herr
    refine hE (fun h => ?_) err
    rw [ownerSessionJobMembership, if_pos (hready.1 h).1] at herr
    cases herr

/-- The membership of a job is recorded, if it has one. -/
def Member (s : Store) (job : RelayJob) : Prop :=
  match ownerSessionIdentity job.metadata true with
  | .error _ => False
  | .ok none => True
  | .ok (some (ownerSessionId, generation)) =>
    (ownerSessionId.length ≤ 256 ∧ 1 ≤ job.cluster.length ∧ job.cluster.length ≤ 256) ∧
      (s.read (membershipPath ownerSessionId generation job.jobId)).isSome

theorem Member.ready (h : Member s job) : MembershipReady s job := by
  unfold Member at h
  unfold MembershipReady
  split at h
  · exact h.elim
  · trivial
  · exact ⟨h.1, .inl h.2⟩

theorem Member.mono (h : Member s job)
    (hst : ∀ p, membershipFile p → (s.read p).isSome → (t.read p).isSome) : Member t job := by
  unfold Member at h ⊢
  split at h
  · exact h.elim
  · trivial
  · exact ⟨h.1, hst _ trivial h.2⟩

theorem MembershipReady.member (h : MembershipReady s job) (ht : MembershipKept job s t) :
    Member t job := by
  unfold MembershipReady at h
  unfold MembershipKept at ht
  unfold Member
  split at h
  · exact h.elim
  · trivial
  · next hident =>
      rw [hident] at ht
      obtain ⟨_, rfl⟩ := ht
      exact ⟨h.1, by rw [read_write_self]; rfl⟩

theorem MembershipKept.agree (h : MembershipKept job s t) : Agree membershipFile s t := by
  unfold MembershipKept at h
  split at h
  · rw [h]
    exact Agree.refl _ s
  · rw [h]
    exact Agree.refl _ s
  · obtain ⟨_, rfl⟩ := h
    exact agree_write (p := membershipPath _ _ _) trivial s _

theorem MembershipKept.members (h : MembershipKept job s t) (p : Path)
    (hp : (s.read p).isSome) : (t.read p).isSome := by
  unfold MembershipKept at h
  split at h
  · rwa [h]
  · rwa [h]
  · obtain ⟨membership, rfl⟩ := h
    rw [read_write]
    split
    · rfl
    · exact hp

/-- A recorded membership stays recordable. -/
theorem MembershipReady.kept (h : MembershipReady s job) (ht : MembershipKept job s t) :
    MembershipReady t job :=
  (h.member ht).ready

/-- Readiness depends on the memberships only. -/
theorem MembershipReady.frame (h : MembershipReady s job)
    (hst : ∀ p, membershipFile p → t.read p = s.read p) : MembershipReady t job := by
  unfold MembershipReady at *
  rcases hident : ownerSessionIdentity job.metadata true with _ | identity
  · rw [hident] at h
    exact h.elim
  rcases identity with _ | ⟨ownerSessionId, generation⟩
  · trivial
  rw [hident] at h
  have hread : t.read (membershipPath ownerSessionId generation job.jobId) =
      s.read (membershipPath ownerSessionId generation job.jobId) := hst _ trivial
  have hcnt : memberCount t ownerSessionId generation = memberCount s ownerSessionId generation :=
    count_frame fun p => by
      cases p <;> first | exact .inr (hst _ trivial) | exact .inl fun _ => rfl
  simp only [hread, hcnt]
  exact h

/-! ### Gateway sessions of a scheduler id -/

/-- The gateway sessions by artifact and scheduler id agree. -/
def SameGateways (s t : Store) : Prop :=
  ∀ relation key sessionId,
    t.read (.gatewaysBy relation key sessionId) = s.read (.gatewaysBy relation key sessionId)

theorem SameGateways.listed (h : SameGateways s t) (relation : GatewayRelation) (key : String)
    (p : Path) : (∀ c, gatewaysListed relation key p c = none) ∨ t.read p = s.read p := by
  cases p <;> first | exact .inr (h ..) | exact .inl fun _ => rfl

theorem SameGateways.of_agree {A : Path → Prop} (h : Agree A s t)
    (hA : ∀ p, A p → schedulerFile p) : SameGateways s t :=
  fun _ _ _ => h _ fun hp => hA _ hp

/-- The gateway sessions of a scheduler id can be read. -/
def GatewaysReadable (s : Store) (schedulerId : String) : Prop :=
  (s.collect (gatewaysListed .scheduler schedulerId)).length ≤ maxGatewayIndexRecords

theorem GatewaysReadable.frame {schedulerId : String} (h : GatewaysReadable s schedulerId)
    (hst : SameGateways s t) : GatewaysReadable t schedulerId := by
  rw [GatewaysReadable, length_collect_frame (hst.listed .scheduler schedulerId)]
  exact h

theorem wp_boundedListing {γ : Type} {Q : Post (List γ)}
    {f : (p : Path) → Content p → Option γ} {limit : Nat} {label : String}
    (hQ : (s.collect f).length ≤ limit → Q (s.collect f) s v)
    (hE : ¬ (s.collect f).length ≤ limit → ∀ err, E err s v) :
    wp (boundedListing f limit label) C Q E s v := by
  simp only [boundedListing, wp_bind, wp_listing, wp_require, decide_eq_true_eq,
    decide_eq_false_iff_not, wp_pure]
  exact ⟨hQ, fun h => hE h _⟩

/-! ### Recording a scheduler source -/

variable {jobId : DurableRecordId} {sourceId schedulerId : String} {metadata : Dict}

/-- Dropping a scheduler id fails exactly if it has more gateway sessions than a listing returns;
only scheduler links are written. -/
theorem wp_dropSchedulerId (hC : ∀ t, Agree schedulerLink s t → C t)
    (hQ : ∀ t w, GatewaysReadable s schedulerId → Agree schedulerLink s t → Q () t w)
    (hE : ¬ GatewaysReadable s schedulerId → ∀ err t w, Agree schedulerLink s t → E err t w) :
    wp (dropSchedulerId jobId sourceId schedulerId) C Q E s v := by
  unfold dropSchedulerId
  rw [wp_bind, wp_unlink]
  have hagree : Agree schedulerLink s
      (s.unlink (schedulerReverseRefPath schedulerId jobId sourceId)) :=
    agree_unlink (p := schedulerReverseRefPath schedulerId jobId sourceId) trivial s
  have hsame : SameGateways s (s.unlink (schedulerReverseRefPath schedulerId jobId sourceId)) :=
    .of_agree hagree fun _ => schedulerLink.schedulerFile
  have hlen := length_collect_frame (hsame.listed .scheduler schedulerId)
  refine ⟨hC _ hagree, ?_⟩
  rw [wp_bind]
  refine wp_boundedListing (fun hbd => ?_) fun hbd err =>
    hE (fun h => hbd (hlen.trans_le h)) err _ _ hagree
  have hready : GatewaysReadable s schedulerId := hlen.symm.trans_le hbd
  refine wp_each (fun _ t _ => Agree schedulerLink s t) _ (fun gateway rest t w ht => ?_)
    (fun t w ht => hQ t w hready ht) _ _ _ hagree
  have h₁ := ht.trans (agree_unlink (p := .activeGatewayRefByJob jobId
    (gatewayRefName gateway.sessionId .scheduler schedulerId (some sourceId))) trivial t)
  have h₂ := h₁.trans (agree_unlink (p := .activeGatewayRefBySession gateway.sessionId
    (gatewayBacklinkName jobId
      (gatewayRefName gateway.sessionId .scheduler schedulerId (some sourceId)))) trivial _)
  simp only [unlinkActiveGatewayJobRef, wp_bind, wp_unlink]
  exact ⟨hC _ h₁, hC _ h₂, h₂⟩

variable [Platform] {state : List String × Bool} {u : Store}

/-- The gateway backlink that a scheduler source implies. -/
def schedulerBacklink (jobId : DurableRecordId) (sourceId schedulerId : String)
    (gateway : GatewaySession) : ActiveGatewayRef where
  sessionId := gateway.sessionId
  jobId := jobId
  relationKind := .scheduler
  relationKey := schedulerId
  sourceId := some sourceId
  recordName := gatewayRefName gateway.sessionId .scheduler schedulerId (some sourceId)

/-- A gateway session of a scheduler id can be linked to a source. -/
def GatewayLinkable (jobId : DurableRecordId) (sourceId schedulerId : String)
    (gateway : GatewaySession) : Prop :=
  gateway.state ≠ .closed →
    Platform.gatewayRefFits (schedulerBacklink jobId sourceId schedulerId gateway) = true

/-- Linking a gateway session fails exactly if the session is not closed and its reference does not
fit; only scheduler links are written. -/
theorem wp_linkSchedulerGateway {gateway : GatewaySession} (hC : ∀ t, Agree schedulerLink s t → C t)
    (hQ : ∀ t w, GatewayLinkable jobId sourceId schedulerId gateway →
      Agree schedulerLink s t → Q () t w)
    (hE : ¬ GatewayLinkable jobId sourceId schedulerId gateway →
      ∀ err t w, Agree schedulerLink s t → E err t w) :
    wp (linkSchedulerGateway jobId sourceId schedulerId gateway) C Q E s v := by
  unfold linkSchedulerGateway
  refine wp_cases (fun hclosed => (wp_pure _).2 (hQ s v (absurd hclosed) (Agree.refl _ s)))
    fun hopen => ?_
  have href : Platform.gatewayRefFits (schedulerBacklink jobId sourceId schedulerId gateway) =
      false → ¬ GatewayLinkable jobId sourceId schedulerId gateway := fun hfits h => by
    rw [h hopen] at hfits
    cases hfits
  have hdoc : (⟨gateway.sessionId, jobId, .scheduler, schedulerId, some sourceId,
      gatewayRefName gateway.sessionId .scheduler schedulerId (some sourceId)⟩ : ActiveGatewayRef) =
        schedulerBacklink jobId sourceId schedulerId gateway := rfl
  have h₁ := agree_write (A := schedulerLink) (p := Path.activeGatewayRefByJob jobId
    (gatewayRefName gateway.sessionId .scheduler schedulerId (some sourceId))) trivial s
    (schedulerBacklink jobId sourceId schedulerId gateway)
  have h₂ := h₁.trans (agree_write (p := Path.activeGatewayRefBySession gateway.sessionId
    (gatewayBacklinkName jobId
      (gatewayRefName gateway.sessionId .scheduler schedulerId (some sourceId)))) trivial _
    (schedulerBacklink jobId sourceId schedulerId gateway))
  simp only [linkActiveGatewayJob, durableKey, requireDurableRecordId_value, wp_bind,
    wp_ofExcept, Except.ok.injEq, forall_eq', reduceCtorEq, false_imp_iff, implies_true,
    and_true, wp_putWithin, hdoc]
  refine ⟨fun hfits => ⟨hC _ h₁, fun _ => ⟨hC _ h₂, hQ _ _ (fun _ => hfits) h₂⟩,
    fun hfits => hE (href hfits) _ _ _ h₁⟩,
    fun hfits => hE (href hfits) _ _ _ (Agree.refl _ s)⟩

/-- A scheduler id can be recorded. -/
structure SchedulerIdReady (s : Store) (jobId : DurableRecordId) (sourceId schedulerId : String) :
    Prop where
  fits : Platform.schedulerJobRefFits { schedulerId, jobId, sourceId } = true
  readable : GatewaysReadable s schedulerId
  links : ∀ gateway ∈ s.collect (gatewaysListed .scheduler schedulerId),
    GatewayLinkable jobId sourceId schedulerId gateway

theorem SchedulerIdReady.frame (h : SchedulerIdReady s jobId sourceId schedulerId)
    (hst : SameGateways s t) : SchedulerIdReady t jobId sourceId schedulerId :=
  ⟨h.fits, h.readable.frame hst, fun gateway hg =>
    h.links gateway ((mem_collect_frame (hst.listed .scheduler schedulerId)).1 hg)⟩

/-- Recording a scheduler id fails exactly if its reference does not fit, its gateways cannot be
listed or one of them cannot be linked; only scheduler links are written. -/
theorem wp_addSchedulerId (hC : ∀ t, Agree schedulerLink s t → C t)
    (hQ : ∀ t w, SchedulerIdReady s jobId sourceId schedulerId → Agree schedulerLink s t →
      Q () t w)
    (hE : ¬ SchedulerIdReady s jobId sourceId schedulerId → ∀ err t w,
      Agree schedulerLink s t → E err t w) :
    wp (addSchedulerId jobId sourceId schedulerId) C Q E s v := by
  unfold addSchedulerId
  refine wp_putWithin_then (fun hfits => ?_) fun hfits => hE (fun h => ?_) _ _ _ (Agree.refl _ s)
  · have hagree := agree_write (A := schedulerLink) (p := Path.schedulerJob
      (schedulerToken schedulerId) (stableRefToken [jobId.value, sourceId])) trivial s
      ⟨schedulerId, jobId, sourceId⟩
    generalize s.write _ _ = u at hagree ⊢
    have hsame : SameGateways s u := .of_agree hagree fun _ => schedulerLink.schedulerFile
    have hlen := length_collect_frame (hsame.listed .scheduler schedulerId)
    refine ⟨hC _ hagree, ?_⟩
    rw [wp_bind]
    refine wp_boundedListing (fun hbd => ?_) fun hbd err =>
      hE (fun h => hbd (hlen.trans_le h.readable)) err _ _ hagree
    -- The sessions that the loop has passed are linkable.
    refine wp_each (fun rest t _ => Agree schedulerLink s t ∧
        (∀ gateway ∈ rest, gateway ∈ u.collect (gatewaysListed .scheduler schedulerId)) ∧
          ∀ gateway ∈ u.collect (gatewaysListed .scheduler schedulerId),
            gateway ∈ rest ∨ GatewayLinkable jobId sourceId schedulerId gateway) _
      (fun gateway rest t w ht => ?_) (fun t w ht => ?_) _ _ _
      ⟨hagree, fun _ h => h, fun _ h => .inl h⟩
    · obtain ⟨ht, hrest, hdone⟩ := ht
      refine wp_linkSchedulerGateway (fun t' ht' => hC t' (ht.trans ht'))
        (fun t' w' hlink ht' => ⟨ht.trans ht', fun g hg => hrest g (.tail _ hg), fun g hg => ?_⟩)
        fun hlink err t' w' ht' => hE (fun h => hlink ?_) err t' w' (ht.trans ht')
      · rcases hdone g hg with hg | hg
        · rcases List.mem_cons.1 hg with rfl | hg
          · exact .inr hlink
          · exact .inl hg
        · exact .inr hg
      · exact (h.frame hsame).links gateway (hrest gateway (.head _))
    · refine hQ t w ⟨hfits, hlen.symm.trans_le hbd, fun gateway hg => ?_⟩ ht.1
      have hg' := (mem_collect_frame (hsame.listed .scheduler schedulerId)).2 hg
      exact (ht.2.2 gateway hg').resolve_left List.not_mem_nil
  · rw [h.fits] at hfits
    cases hfits

/-- The manifest of a scheduler source. -/
def schedulerManifest (jobId : DurableRecordId) (sourceId : String) (state : List String × Bool) :
    SchedulerSourceManifest where
  jobId := jobId
  sourceId := sourceId
  schedulerIds := state.1.insertionSort (· ≤ ·)
  ambiguous := state.2

/-- The scheduler ids that a source has named before and no longer does. -/
def droppedIds (s : Store) (jobId : DurableRecordId) (sourceId : String) (ids : List String) :
    List String :=
  (((s.read (.schedulerRefs jobId (stableRefToken [sourceId]))).map
    SchedulerSourceManifest.schedulerIds).getD []).filter fun id => !ids.contains id

/-- A scheduler source can be recorded. -/
structure SchedulerReady (s : Store) (jobId : DurableRecordId) (sourceId : String)
    (state : List String × Bool) : Prop where
  dropped : ∀ id ∈ droppedIds s jobId sourceId state.1, GatewaysReadable s id
  fits : (!state.1.isEmpty || state.2) = true →
    Platform.schedulerManifestFits (schedulerManifest jobId sourceId state) = true
  named : ∀ id ∈ state.1, SchedulerIdReady s jobId sourceId id

/-- A scheduler source is being recorded: its manifest is the old one or the new one. -/
structure SchedulerMoving (jobId : DurableRecordId) (sourceId : String)
    (state : List String × Bool) (s t : Store) : Prop where
  agree : Agree schedulerFile s t
  others : ∀ id source, (id, source) ≠ (jobId, stableRefToken [sourceId]) →
    t.read (.schedulerRefs id source) = s.read (.schedulerRefs id source)
  manifest : t.read (.schedulerRefs jobId (stableRefToken [sourceId])) =
      s.read (.schedulerRefs jobId (stableRefToken [sourceId])) ∨
    t.read (.schedulerRefs jobId (stableRefToken [sourceId])) = none ∨
      t.read (.schedulerRefs jobId (stableRefToken [sourceId])) =
        some (schedulerManifest jobId sourceId state)

section

section

variable (h : SchedulerMoving jobId sourceId state s t)

include h

omit [Platform]

theorem SchedulerMoving.link
    (htu : Agree schedulerLink t u) : SchedulerMoving jobId sourceId state s u := by
  refine ⟨h.agree.trans (htu.mono fun _ => schedulerLink.schedulerFile), fun id source hne => ?_, ?_⟩
  · rw [htu _ (by simp [schedulerLink]), h.others id source hne]
  · rw [htu _ (by simp [schedulerLink])]
    exact h.manifest

theorem SchedulerMoving.writeManifest :
    SchedulerMoving jobId sourceId state s (t.write (.schedulerRefs jobId (stableRefToken [sourceId]))
      (schedulerManifest jobId sourceId state)) := by
  refine ⟨h.agree.trans (agree_write (p := Path.schedulerRefs _ _) trivial t _),
    fun id source hne => ?_, .inr (.inr (read_write_self ..))⟩
  rw [read_write_ne _ (by simpa using hne), h.others id source hne]

theorem SchedulerMoving.unlinkManifest :
    SchedulerMoving jobId sourceId state s
      (t.unlink (.schedulerRefs jobId (stableRefToken [sourceId]))) := by
  refine ⟨h.agree.trans (agree_unlink (p := Path.schedulerRefs _ _) trivial t),
    fun id source hne => ?_, .inr (.inl (read_unlink_self ..))⟩
  rw [read_unlink_ne (by simpa using hne), h.others id source hne]

theorem SchedulerMoving.protection
    (htu : Agree (fun p => ∃ source, p = .schedulerProtection jobId source) t u) :
    SchedulerMoving jobId sourceId state s u := by
  refine ⟨h.agree.trans (htu.mono fun p hp => ?_), fun id source hne => ?_, ?_⟩
  · obtain ⟨source, rfl⟩ := hp
    trivial
  · rw [htu _ (by simp), h.others id source hne]
  · rw [htu _ (by simp)]
    exact h.manifest

end

end

/-- A recorded source stays recordable, however far the recording went. -/
theorem SchedulerReady.moving (h : SchedulerReady s jobId sourceId state)
    (ht : SchedulerMoving jobId sourceId state s t) : SchedulerReady t jobId sourceId state := by
  have hsame : SameGateways s t := .of_agree ht.agree fun _ h => h
  refine ⟨fun id hid => ?_, h.fits, fun id hid => (h.named id hid).frame hsame⟩
  unfold droppedIds at hid
  rcases ht.manifest with hm | hm | hm
  · rw [hm] at hid
    exact (h.dropped id hid).frame hsame
  · rw [hm] at hid
    exact absurd hid List.not_mem_nil
  · rw [hm] at hid
    simp [schedulerManifest] at hid

theorem SchedulerReady.frame (h : SchedulerReady s jobId sourceId state) (hst : SameGateways s t)
    (hrefs : t.read (.schedulerRefs jobId (stableRefToken [sourceId])) = s.read (.schedulerRefs jobId (stableRefToken [sourceId]))) :
    SchedulerReady t jobId sourceId state := by
  refine ⟨fun id hid => ?_, h.fits, fun id hid => (h.named id hid).frame hst⟩
  unfold droppedIds at hid
  rw [hrefs] at hid
  exact (h.dropped id hid).frame hst

/-- **Recording a scheduler source.**  It succeeds exactly when the source is ready. -/
theorem wp_syncSchedulerSource (hC : ∀ state t, metadataSchedulerGcState metadata = .ok state →
      SchedulerMoving jobId sourceId state s t → C t)
    (hQ : ∀ state t w, metadataSchedulerGcState metadata = .ok state →
      SchedulerReady s jobId sourceId state → SchedulerMoving jobId sourceId state s t → Q () t w)
    (hinvalid : ∀ err, metadataSchedulerGcState metadata = .error err → E err s v)
    (hE : ∀ state err t w, metadataSchedulerGcState metadata = .ok state →
      ¬ SchedulerReady s jobId sourceId state → SchedulerMoving jobId sourceId state s t →
        E err t w) :
    wp (syncSchedulerSource jobId sourceId metadata) C Q E s v := by
  unfold syncSchedulerSource
  refine wp_ofExcept_then (fun state hstate => ?_) hinvalid
  have hstart : SchedulerMoving jobId sourceId state s s :=
    ⟨Agree.refl _ s, fun _ _ _ => rfl, .inl rfl⟩
  rw [wp_bind, read_eq_look, wp_look, wp_bind]
  -- First the ids that are no longer named.
  refine wp_each (fun rest t _ => SchedulerMoving jobId sourceId state s t ∧
      (∀ id ∈ rest, id ∈ droppedIds s jobId sourceId state.1) ∧
        ∀ id ∈ droppedIds s jobId sourceId state.1, id ∈ rest ∨ GatewaysReadable s id) _
    (fun id rest t w ht => ?_) (fun t w ht => ?_) _ _ _
    ⟨hstart, fun _ h => h, fun _ h => .inl h⟩
  · obtain ⟨ht, hrest, hdone⟩ := ht
    have hsame : SameGateways s t := .of_agree ht.agree fun _ h => h
    have hsame' : SameGateways t s := fun r k i => (hsame r k i).symm
    refine wp_dropSchedulerId (fun t' ht' => hC state t' hstate (ht.link ht'))
      (fun t' w' hread ht' => ⟨ht.link ht', fun i hi => hrest i (.tail _ hi), fun i hi => ?_⟩)
      fun hread err t' w' ht' => hE state err t' w' hstate
        (fun h => hread ((h.dropped id (hrest id (.head _))).frame hsame)) (ht.link ht')
    rcases hdone i hi with hi | hi
    · rcases List.mem_cons.1 hi with rfl | hi
      · exact .inr (hread.frame hsame')
      · exact .inl hi
    · exact .inr hi
  obtain ⟨ht, -, hdrop⟩ := ht
  have hdrop : ∀ id ∈ droppedIds s jobId sourceId state.1, GatewaysReadable s id :=
    fun id hid => (hdrop id hid).resolve_left List.not_mem_nil
  have hprotection : ∀ t w, ((!state.1.isEmpty || state.2) = true →
      Platform.schedulerManifestFits (schedulerManifest jobId sourceId state) = true) →
      SchedulerMoving jobId sourceId state s t →
        wp ((if state.2 then put (.schedulerProtection jobId (stableRefToken [sourceId])) ()
          else unlink (.schedulerProtection jobId (stableRefToken [sourceId]))) >>= fun _ =>
            each (addSchedulerId jobId sourceId) state.1) C Q E t w := by
    intro t w hfits ht
    -- Then the ids that are named.
    have hnamed : ∀ t w, SchedulerMoving jobId sourceId state s t →
        wp (each (addSchedulerId jobId sourceId) state.1) C Q E t w := by
      intro t w ht
      refine wp_each (fun rest t _ => SchedulerMoving jobId sourceId state s t ∧
          (∀ id ∈ rest, id ∈ state.1) ∧
            ∀ id ∈ state.1, id ∈ rest ∨ SchedulerIdReady s jobId sourceId id) _
        (fun id rest t w ht => ?_) (fun t w ht => ?_) _ _ _ ⟨ht, fun _ h => h, fun _ h => .inl h⟩
      · obtain ⟨ht, hrest, hdone⟩ := ht
        have hsame : SameGateways s t := .of_agree ht.agree fun _ h => h
        have hsame' : SameGateways t s := fun r k i => (hsame r k i).symm
        refine wp_addSchedulerId (fun t' ht' => hC state t' hstate (ht.link ht'))
          (fun t' w' hread ht' => ⟨ht.link ht', fun i hi => hrest i (.tail _ hi), fun i hi => ?_⟩)
          fun hread err t' w' ht' => hE state err t' w' hstate
            (fun h => hread ((h.named id (hrest id (.head _))).frame hsame)) (ht.link ht')
        rcases hdone i hi with hi | hi
        · rcases List.mem_cons.1 hi with rfl | hi
          · exact .inr (hread.frame hsame')
          · exact .inl hi
        · exact .inr hi
      · exact hQ state t w hstate
          ⟨hdrop, hfits, fun id hid => (ht.2.2 id hid).resolve_left List.not_mem_nil⟩ ht.1
    rw [wp_bind]
    refine wp_cases (fun _ => ?_) fun _ => ?_
    · have ht' := ht.protection (agree_write
        (p := Path.schedulerProtection jobId (stableRefToken [sourceId])) ⟨_, rfl⟩ t ())
      exact wp_put.2 ⟨hC state _ hstate ht', hnamed _ _ ht'⟩
    · have ht' := ht.protection (agree_unlink
        (p := Path.schedulerProtection jobId (stableRefToken [sourceId])) ⟨_, rfl⟩ t)
      exact wp_unlink.2 ⟨hC state _ hstate ht', hnamed _ _ ht'⟩
  rw [wp_bind]
  refine wp_cases (fun hsome => ?_) fun hnone => ?_
  · rw [wp_putWithin]
    refine ⟨fun hfits => ⟨hC state _ hstate ht.writeManifest,
      hprotection _ _ (fun _ => hfits) ht.writeManifest⟩, fun hfits => ?_⟩
    refine hE state _ _ _ hstate (fun h => ?_) ht
    have hfits' : Platform.schedulerManifestFits (schedulerManifest jobId sourceId state) = false :=
      hfits
    rw [h.fits hsome] at hfits'
    cases hfits'
  · exact wp_unlink.2 ⟨hC state _ hstate ht.unlinkManifest,
      hprotection _ _ (fun h => absurd h hnone) ht.unlinkManifest⟩

end

end ClioQueue
