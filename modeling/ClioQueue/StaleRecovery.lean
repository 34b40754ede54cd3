/-
# Recovering a job from its expired leases

`_apply_stale_lease_recovery_intent_unlocked` from a queue in which its intent has
just been written, and from every state in which it, or an earlier replay, may
have stopped.  The job is written before the event, the event before the lease
files go, and of a lease the canonical record goes before its manifest: the
checks at the head of the replay tell these prefixes from a changed queue
(`RecoveryReady`).
-/

import ClioQueue.LeaseOperations
import ClioQueue.QuietWrites

namespace ClioQueue

open Durable Durable.Prog Durable.Files

/-- The recovery of a job from live leases that it holds. -/
structure Recovery (T : LeaseTable) (original target : RelayJob) (leases : List Lease)
    (event : RelayEvent) (transition : LeaseCapacityTransition) : Prop where
  valid : recoveryIntentValid original target leases event = true
  live : ∀ lease ∈ leases, T.read lease.leaseId = some (.of lease original)
  cluster : original.cluster ≠ ""
  between : transition.Between T (T.remove (leases.map Lease.leaseId))

/-- What the replay of a recovery finds in a queue that only the recovery has touched: the
leases are there as long as the job is the old one, and a lease has its manifest. -/
def RecoveryReady (original : RelayJob) (leases : List Lease) (s : Store) : Prop :=
  ∀ lease ∈ leases,
    (s.read (.job original.jobId) = some original → (s.read (.lease lease.leaseId)).isSome) ∧
      ((s.read (.lease lease.leaseId)).isSome →
        (s.read (.leaseIndex (leaseIndexToken lease.leaseId))).isSome)

/-- The files of the recovery event. -/
def recoveryEventFile (event : RelayEvent) (p : Path) : Prop :=
  p = .event event.jobId event.seq ∨ p = .jobIndex event.jobId

/-- The recovery event is being written. -/
structure EventWriting (event : RelayEvent) (s t : Store) : Prop where
  agree : Agree (recoveryEventFile event) s t
  record : t.read (.event event.jobId event.seq) = s.read (.event event.jobId event.seq) ∨
    t.read (.event event.jobId event.seq) = some event
  index : (s.read (.jobIndex event.jobId)).isSome → (t.read (.jobIndex event.jobId)).isSome

/-- The recovery event has been written. -/
structure EventWritten (event : RelayEvent) (s t : Store) : Prop where
  agree : Agree (recoveryEventFile event) s t
  record : t.read (.event event.jobId event.seq) = some event
  index : ∃ index, t.read (.jobIndex event.jobId) = some index ∧ event.seq ≤ index.latestEventSeq

section

variable {T : LeaseTable} {original target : RelayJob} {leases : List Lease} {event : RelayEvent}
  {transition : LeaseCapacityTransition} {s₀ s t u x : Store} {v : Supply}
  {C : Store → Prop} {Q : Post Unit} {E : Post RelayError}

namespace Recovery

variable (h : Recovery T original target leases event transition)

include h

theorem target_jobId : target.jobId = original.jobId := by
  have := h.valid
  simp only [recoveryIntentValid, Bool.and_eq_true, beq_iff_eq] at this
  tauto

theorem target_eq : target = recoveredJob original target.state target.updatedAt := by
  have := h.valid
  simp only [recoveryIntentValid, Bool.and_eq_true, beq_iff_eq] at this
  tauto

theorem target_state : target.state = .queued ∨ target.state = .failed := by
  have := h.valid
  simp only [recoveryIntentValid, Bool.and_eq_true, Bool.or_eq_true, beq_iff_eq] at this
  tauto

theorem original_held : original.state.held = true := by
  have := h.valid
  simp only [recoveryIntentValid, Bool.and_eq_true] at this
  tauto

theorem nodup : (leases.map Lease.leaseId).Nodup := by
  have := h.valid
  simp only [recoveryIntentValid, Bool.and_eq_true, decide_eq_true_eq] at this
  tauto

theorem lease_jobId {lease : Lease} (hlease : lease ∈ leases) : lease.jobId = original.jobId := by
  have hall : leases.all (fun lease => lease.jobId == original.jobId) = true := by
    have := h.valid
    simp only [recoveryIntentValid, Bool.and_eq_true] at this
    exact this.2
  exact beq_iff_eq.1 (List.all_eq_true.1 hall lease hlease)

theorem target_ne : target ≠ original := fun heq => by
  have hheld := h.original_held
  rcases h.target_state with hstate | hstate
  all_goals
    rw [heq] at hstate
    rw [hstate] at hheld
    cases hheld

theorem identity {lease : Lease} (hlease : lease ∈ leases) :
    leaseIndexIdentity lease original = .ok (LiveLease.of lease original).identity :=
  leaseIndexIdentity_live (e := .of lease original) (h.lease_jobId hlease) rfl rfl

end Recovery

/-! ### The checks of the replay -/

/-- **The checks pass in every state that the recovery itself can leave.** -/
theorem wp_checkRecoveredLeases (hR : Recovery T original target leases event transition)
    (hT : T.Named)
    (h : Tearing (.staleLeaseRecovery original target leases event transition) transition T
      (T.remove (leases.map Lease.leaseId)) s₀ s) (hQ : Q () s v)
    (hE : ¬ RecoveryReady original leases s → ∀ err, E err s v) :
    wp (each (checkRecoveredLease original (s.read (.job original.jobId))) leases) C Q E s v := by
  refine wp_each (fun rest t w => t = s ∧ w = v ∧ ∀ lease ∈ rest, lease ∈ leases) _
    (fun lease rest t w hJ => ?_) (fun t w hJ => ?_) leases s v ⟨rfl, rfl, fun _ => id⟩
  swap
  · obtain ⟨rfl, rfl, -⟩ := hJ
    exact hQ
  obtain ⟨rfl, rfl, hrest⟩ := hJ
  have hlease := hrest lease (.head _)
  have hlive := hR.live lease hlease
  have hid : lease.leaseId ∈ leases.map Lease.leaseId := List.mem_map_of_mem hlease
  -- The canonical lease and the manifest are the old ones or gone.
  have hcanon : ∀ found, t.read (.lease lease.leaseId) = some found → found = lease := by
    intro found hread
    rcases h.moving.between (.lease lease.leaseId) trivial with hr | hr
    · rw [hread, LeaseTable.file_lease, hlive] at hr
      exact Option.some.inj hr
    · rw [hread, LeaseTable.file_lease_remove hid] at hr
      cases hr
  have hman : ∀ identity, t.read (.leaseIndex (leaseIndexToken lease.leaseId)) =
      some identity → identity = (LiveLease.of lease original).identity :=
    h.manifest_removed (e := .of lease original) hT hlive hid
  have hend : t = t ∧ w = w ∧ ∀ lease ∈ rest, lease ∈ leases :=
    ⟨rfl, rfl, fun lease hl => hrest lease (.tail _ hl)⟩
  unfold checkRecoveredLease readLease
  simp only [read_eq_look, wp_bind, wp_look, wp_require, wp_pure]
  have hname : (t.read (.lease lease.leaseId)).all (fun found => found.leaseId == lease.leaseId) =
      true := by
    rcases hread : t.read (.lease lease.leaseId) with _ | found
    · rfl
    · simp [hcanon found hread]
  have hsame : (t.read (.lease lease.leaseId)).all (fun found => found == lease) = true := by
    rcases hread : t.read (.lease lease.leaseId) with _ | found
    · rfl
    · simp [hcanon found hread]
  rw [hname, hsame]
  refine ⟨fun _ => ⟨fun _ => ⟨fun _ => ?_, fun hmiss => ?_⟩, by rintro ⟨⟩⟩, by rintro ⟨⟩⟩
  · rw [wp_present]
    refine wp_cases (fun hfound => ?_) fun hmiss => ?_
    · obtain ⟨identity, hread⟩ := Option.isSome_iff_exists.1 hfound
      obtain rfl := hman identity hread
      rw [wp_bind, wp_ofExcept, hR.identity hlease]
      refine ⟨fun expected hexp => ?_, by rintro _ ⟨⟩⟩
      obtain rfl := Except.ok.inj hexp
      rw [wp_bind]
      refine wp_readLeaseIndexIdentity hread hR.cluster rfl ?_
      rw [wp_require, beq_self_eq_true]
      exact ⟨fun _ => hend, by rintro ⟨⟩⟩
    · rw [wp_require]
      refine ⟨fun _ => hend, fun hnone => hE (fun hready => hmiss ?_) _⟩
      refine (hready lease hlease).2 ?_
      rcases hread : t.read (.lease lease.leaseId) with _ | found
      · rw [hread] at hnone
        cases hnone
      · rfl
  · refine hE (fun hready => ?_) _
    simp only [Bool.or_eq_false_iff, bne_eq_false_iff_eq] at hmiss
    have := (hready lease hlease).1 hmiss.2
    rw [hmiss.1] at this
    cases this

/-! ### The event -/

variable [Platform]

/-- The recovery event can be written, or has been. -/
structure EventReady (s : Store) (event : RelayEvent) : Prop where
  record : (s.read (.event event.jobId event.seq) = none ∧ Platform.eventFits event = true) ∨
    s.read (.event event.jobId event.seq) = some event
  index : (s.read (.jobIndex event.jobId)).isSome

omit [Platform] in
theorem EventWriting.refl (event : RelayEvent) (s : Store) : EventWriting event s s :=
  ⟨Agree.refl _ s, .inl rfl, id⟩

omit [Platform] in
theorem EventWritten.writing (h : EventWritten event s t) : EventWriting event s t := by
  obtain ⟨index, hidx, -⟩ := h.index
  exact ⟨h.agree, .inr h.record, fun _ => by rw [hidx]; rfl⟩

/-- The head of the log follows the record. -/
theorem wp_recoveryHead {t : Store} {w : Supply} (hC : ∀ t, EventWriting event s t → C t)
    (hQ : ∀ t w, EventWritten event s t → Q () t w)
    (hE : ∀ err t w, ¬ EventReady s event → EventWriting event s t → E err t w)
    (hagree : Agree (recoveryEventFile event) s t)
    (hrec : t.read (.event event.jobId event.seq) = some event)
    (hidx : t.read (.jobIndex event.jobId) = s.read (.jobIndex event.jobId)) :
    wp (read (.jobIndex event.jobId) >>= fun index =>
      match index with
      | none => raise (.conflict s!"stale recovery job index is missing: {event.jobId}")
      | some index =>
        if index.latestEventSeq < event.seq then
          updateJobIndex event.jobId (JobIndex.setLatestEventSeq event.seq)
        else pure ()) C Q E t w := by
  have hindexFile : recoveryEventFile event (.jobIndex event.jobId) := .inr rfl
  simp only [read_eq_look, wp_bind, wp_look]
  rcases hread : t.read (.jobIndex event.jobId) with _ | index
  · refine (wp_raise _).2 (hE _ _ _ (fun h => ?_) ⟨hagree, .inr hrec, fun h => ?_⟩)
    · have := h.index
      rw [← hidx, hread] at this
      cases this
    · rwa [← hidx] at h
  · dsimp only
    refine wp_cases (fun _ => ?_) fun hle => ?_
    · have hend : EventWritten event s (t.write (.jobIndex event.jobId)
          (JobIndex.setLatestEventSeq event.seq index)) :=
        ⟨hagree.trans (agree_write hindexFile t _), by rw [read_write_ne _, hrec],
          _, read_write_self .., le_refl _⟩
      simp only [updateJobIndex, read_eq_look, wp_bind, wp_look, hread, wp_put]
      exact ⟨hC _ hend.writing, hQ _ _ hend⟩
    · exact (wp_pure _).2 (hQ _ _ ⟨hagree, hrec, index, hread, not_lt.1 hle⟩)

/-- **The recovery event is written once.** -/
theorem wp_writeRecoveryEvent (hC : ∀ t, EventWriting event s t → C t)
    (hQ : ∀ t w, EventWritten event s t → Q () t w)
    (hE : ∀ err t w, ¬ EventReady s event → EventWriting event s t → E err t w) :
    wp (writeRecoveryEvent event) C Q E s v := by
  have hev : recoveryEventFile event (.event event.jobId event.seq) := .inl rfl
  unfold writeRecoveryEvent
  rw [read_eq_look, wp_bind, wp_look]
  rcases hread : s.read (.event event.jobId event.seq) with _ | _
  · simp only [Option.all_none, Option.isSome_none, Bool.false_eq_true, if_false]
    refine wp_require_then (fun _ => ?_) (by rintro ⟨⟩)
    rw [wp_bind, wp_putWithin]
    have hagree := agree_write hev s event
    have hrec : (s.write (.event event.jobId event.seq) event).read
        (.event event.jobId event.seq) = some event := read_write_self ..
    have hidx : (s.write (.event event.jobId event.seq) event).read (.jobIndex event.jobId) =
        s.read (.jobIndex event.jobId) := read_write_ne _
    refine ⟨fun _ => ⟨hC _ ⟨hagree, .inr hrec, fun h => by rwa [hidx]⟩,
      wp_recoveryHead hC hQ hE hagree hrec hidx⟩, fun hfits => hE _ _ _ (fun h => ?_) (.refl event s)⟩
    rcases h.record with ⟨-, hfits'⟩ | hr
    · rw [hfits'] at hfits
      cases hfits
    · rw [hread] at hr
      cases hr
  · simp only [Option.all_some, Option.isSome_some, if_true]
    refine wp_require_then (fun hsame => ?_) fun hne => hE _ _ _ (fun h => ?_) (.refl event s)
    · rw [wp_bind, wp_pure]
      rw [beq_iff_eq.1 hsame] at hread
      exact wp_recoveryHead hC hQ hE (Agree.refl _ s) hread rfl
    · rcases h.record with ⟨hr, -⟩ | hr
      · rw [hread] at hr
        cases hr
      · rw [hread] at hr
        rw [Option.some.inj hr, beq_self_eq_true] at hne
        cases hne

/-! ### The leases -/

section

omit [Platform]

theorem leaseKey_leaseIndex (leaseId : DurableRecordId) :
    leaseKey (.leaseIndex (leaseIndexToken leaseId)) = some leaseId :=
  leaseIdOf_leaseIndexToken leaseId

/-- The deletion of a lease touches its own files only. -/
theorem confined_deleteRecoveredLease (original : RelayJob) (lease : Lease) :
    Confined (fun p => leaseKey p = some lease.leaseId) (deleteRecoveredLease original lease) := by
  unfold deleteRecoveredLease
  refine ⟨fun s v => ?_⟩
  refine wp_ofExcept_then (fun identity hident => ?_) fun _ _ => Agree.refl _ s
  have hid : identity.leaseId = lease.leaseId := by
    unfold leaseIndexIdentity at hident
    split at hident
    · rw [← Except.ok.inj hident]
      rfl
    · cases hident
  have hkey : leaseKey identity.indexPath = some lease.leaseId := by
    rw [← hid]
    exact leaseKey_leaseIndex _
  have hrefs : Confined (fun p => leaseKey p = some lease.leaseId) (unlinkLeaseRefs identity) := by
    have href : ∀ p ∈ [identity.endpointRefPath, identity.endpointGuardPath,
        identity.clusterKindRefPath, identity.expiryRefPath, identity.identityRefPath],
        leaseKey p = some lease.leaseId := by
      intro p hp
      rw [← hid]
      simp only [List.mem_cons, List.not_mem_nil, or_false] at hp
      rcases hp with rfl | rfl | rfl | rfl | rfl <;> exact leaseIdOf_leaseIndexToken _
    simp only [List.forall_mem_cons, List.not_mem_nil, false_imp_iff, implies_true,
      and_true] at href
    obtain ⟨h₁, h₂, h₃, h₄, h₅⟩ := href
    exact .bind (confined_unlink h₁) fun _ => .bind (confined_unlink h₂) fun _ =>
      .bind (confined_unlink h₃) fun _ => .bind (confined_unlink h₄) fun _ => confined_unlink h₅
  have hreadManifest : Confined (fun p => leaseKey p = some lease.leaseId)
      (readLeaseIndexIdentity lease.leaseId) :=
    .ofReadOnly (readOnly_readLeaseIndexIdentity _)
  have hdelete : Confined (fun p => leaseKey p = some lease.leaseId)
      (deleteLeaseFiles lease identity) :=
    .bind (confined_unlink rfl) fun _ => .bind (confined_unlink rfl) fun _ =>
      .bind (confined_present _) fun _ => .ite (.bind (.ofReadOnly
        (readOnly_readLeaseIndexIdentityByToken ..)) fun _ => .ite (.bind hrefs fun _ => confined_unlink hkey)
          (.guard <| hrefs)) hrefs
  exact (Confined.bind (.ofExcept _) fun _ => .bind (confined_present _) fun _ =>
    .bind (.ite (.bind hreadManifest fun _ => .require _ _) (.pure _)) fun _ => hdelete).within s v

/-- **One deletion of a recovery**, from wherever an earlier one stopped. -/
theorem wp_deleteRecoveredLease {f : (p : Path) → Option (Content p)} {D : Path → Prop}
    {lease : Lease} (h : MovedFrom s₀ f (T.remove (leases.map Lease.leaseId)).file D s)
    (hlease : lease ∈ leases) (hR : Recovery T original target leases event transition)
    (hs : ∀ identity, s.read (.leaseIndex (leaseIndexToken lease.leaseId)) = some identity →
      identity = (LiveLease.of lease original).identity)
    (hC : ∀ t, MovedFrom s₀ f (T.remove (leases.map Lease.leaseId)).file
      (fun p => p = .lease lease.leaseId ∨ D p) t →
        Agree (fun p => leaseKey p = some lease.leaseId) s t → C t)
    (hQ : ∀ t w, MovedFrom s₀ f (T.remove (leases.map Lease.leaseId)).file
      (fun p => p ∈ (LiveLease.of lease original).files ∨ D p) t →
        Agree (fun p => leaseKey p = some lease.leaseId) s t → Q () t w) :
    wp (deleteRecoveredLease original lease) C Q E s v := by
  have hid : lease.leaseId ∈ leases.map Lease.leaseId := List.mem_map_of_mem hlease
  have hmoves : wp (deleteRecoveredLease original lease)
      (MovedFrom s₀ f (T.remove (leases.map Lease.leaseId)).file
        (fun p => p = .lease lease.leaseId ∨ D p))
      (fun _ t _ => MovedFrom s₀ f (T.remove (leases.map Lease.leaseId)).file
        (fun p => p ∈ (LiveLease.of lease original).files ∨ D p) t) (fun _ _ _ => False) s v := by
    unfold deleteRecoveredLease
    rw [wp_bind, wp_ofExcept, hR.identity hlease]
    refine ⟨fun identity hident => ?_, nofun⟩
    obtain rfl := Except.ok.inj hident
    have hval : validateLeaseIndexIdentity lease (LiveLease.of lease original).identity = .ok () :=
      validateLeaseIndexIdentity_live (e := .of lease original)
    rw [wp_bind, wp_ofExcept, hval]
    refine ⟨fun _ _ => ?_, nofun⟩
    have hfiles : wp (deleteLeaseFiles lease (LiveLease.of lease original).identity)
        (MovedFrom s₀ f (T.remove (leases.map Lease.leaseId)).file
          (fun p => p = .lease lease.leaseId ∨ D p))
        (fun _ t _ => MovedFrom s₀ f (T.remove (leases.map Lease.leaseId)).file
          (fun p => p ∈ (LiveLease.of lease original).files ∨ D p) t) (fun _ _ _ => False) s v :=
      wp_removeLeaseFiles (e := .of lease original) h
        (fun p hp => LeaseTable.file_remove_files hid hp) hR.cluster hs (fun _ => id) fun _ => id
    rw [wp_bind, wp_present, wp_bind]
    refine wp_cases (fun hfound => ?_) fun _ => (wp_pure _).2 hfiles
    obtain ⟨identity, hread⟩ := Option.isSome_iff_exists.1 hfound
    obtain rfl := hs identity hread
    rw [wp_bind]
    refine wp_readLeaseIndexIdentity hread hR.cluster rfl ?_
    rw [wp_require, beq_self_eq_true]
    exact ⟨fun _ => hfiles, nofun⟩
  have hframe := (confined_deleteRecoveredLease original lease).within s v
  exact wp_mono (wp_and hmoves hframe) (fun t ht => hC t ht.1 ht.2)
    (fun _ t w ht => hQ t w ht.1 ht.2) fun _ _ _ ht => ht.1.elim

end

/-- Of a lease that is being recovered the canonical record goes before the manifest. -/
def LeaseBeforeManifest (leases : List Lease) (s : Store) : Prop :=
  ∀ lease ∈ leases, (s.read (.lease lease.leaseId)).isSome →
    (s.read (.leaseIndex (leaseIndexToken lease.leaseId))).isSome

omit [Platform] in
/-- **The deletions of a recovery.** -/
theorem wp_deleteRecoveredLeases (hR : Recovery T original target leases event transition)
    (hT : T.Named)
    (h : Tearing (.staleLeaseRecovery original target leases event transition) transition T
      (T.remove (leases.map Lease.leaseId)) s₀ s) (hordered : LeaseBeforeManifest leases s)
    (hC : ∀ t, MovedFrom s T.file (T.remove (leases.map Lease.leaseId)).file (fun _ => False) t →
      LeaseBeforeManifest leases t → C t)
    (hQ : ∀ t w, MovedFrom s T.file (T.remove (leases.map Lease.leaseId)).file (fun _ => False) t →
      LeaseBeforeManifest leases t →
        (∀ p, leaseFile p → t.read p = (T.remove (leases.map Lease.leaseId)).file p) → Q () t w) :
    wp (each (deleteRecoveredLease original) leases) C Q E s v := by
  -- The leases still to delete have not been touched, the others are gone.
  refine wp_each (fun rest t _ =>
    rest.Sublist leases ∧
    MovedFrom s T.file (T.remove (leases.map Lease.leaseId)).file
      (fun p => ∃ lease ∈ leases, lease ∉ rest ∧ p ∈ (LiveLease.of lease original).files) t ∧
    ∀ lease ∈ rest, ∀ p, leaseKey p = some lease.leaseId → t.read p = s.read p) _
    (fun lease rest t w hJ => ?_) (fun t w hJ => ?_) leases s v
    ⟨List.Sublist.refl _, (MovedFrom.start h.moving).mono fun p ⟨lease, hin, hout, _⟩ => hout hin,
      fun _ _ _ _ => rfl⟩
  · obtain ⟨hsub, ht, hkept⟩ := hJ
    have hlease : lease ∈ leases := hsub.subset (.head _)
    have hnd : ((lease :: rest).map Lease.leaseId).Nodup := hR.nodup.sublist (hsub.map _)
    have hne : ∀ other ∈ rest, other.leaseId ≠ lease.leaseId := fun other hother heq =>
      (List.nodup_cons.1 hnd).1 (heq ▸ List.mem_map_of_mem hother)
    have hrest : ∀ {y : Store}, Agree (fun p => leaseKey p = some lease.leaseId) t y →
        ∀ other ∈ rest, ∀ p, leaseKey p = some other.leaseId → y.read p = s.read p := by
      intro y hy other hother p hp
      rw [hy p fun hp' => hne other hother (Option.some.inj (hp.symm.trans hp')),
        hkept other (.tail _ hother) p hp]
    refine wp_deleteRecoveredLease ht hlease hR (fun identity hread => ?_) (fun y hy hagree => ?_)
      fun y w hy hagree => ⟨(List.sublist_cons_self ..).trans hsub, hy.mono ?_, hrest hagree⟩
    · rw [hkept lease (.head _) _ (leaseKey_leaseIndex _)] at hread
      exact h.manifest_removed (e := .of lease original) hT (hR.live lease hlease)
        (List.mem_map_of_mem hlease) identity hread
    · refine hC y hy.forget fun other hother hpres => ?_
      -- A lease whose canonical record is there is one of those still to delete.
      have hgone : (T.remove (leases.map Lease.leaseId)).file (.lease other.leaseId) = none :=
        LeaseTable.file_lease_remove (List.mem_map_of_mem hother)
      by_cases hin : other ∈ lease :: rest
      · rcases List.mem_cons.1 hin with rfl | hin
        · rw [hy.moving.done (.lease other.leaseId) trivial (.inl rfl), hgone] at hpres
          cases hpres
        · rw [hrest hagree other hin _ (leaseKey_leaseIndex _)]
          rw [hrest hagree other hin (.lease other.leaseId) rfl] at hpres
          exact hordered other hother hpres
      · rw [hy.moving.done (.lease other.leaseId) trivial
          (.inr ⟨other, hother, hin, .head _⟩), hgone] at hpres
        cases hpres
    · rintro p ⟨other, hother, hout, hp⟩
      by_cases heq : other = lease
      · exact .inl (heq ▸ hp)
      · exact .inr ⟨other, hother, by simp [heq, hout], hp⟩
  · obtain ⟨-, ht, -⟩ := hJ
    refine hQ t w ht.forget (fun lease hlease hpres => ?_) (ht.moving.finish fun p _ hp => ?_)
    · have hgone : (T.remove (leases.map Lease.leaseId)).file (.lease lease.leaseId) = none :=
        LeaseTable.file_lease_remove (List.mem_map_of_mem hlease)
      rw [ht.moving.done (.lease lease.leaseId) trivial ⟨lease, hlease, List.not_mem_nil, .head _⟩,
        hgone] at hpres
      cases hpres
    · refine LeaseTable.file_remove_eq hT fun id e hid he hp' => ?_
      obtain ⟨lease, hlease, rfl⟩ := List.mem_map.1 hid
      rw [hR.live lease hlease] at he
      cases he
      exact hp ⟨lease, hlease, List.not_mem_nil, hp'⟩

/-! ### The recovery -/

/-- Where a recovery from `s` can be stopped: before its job is written, before its event is, or
on the way to the table without its leases. -/
inductive Recovering (T : LeaseTable) (original target : RelayJob) (leases : List Lease)
    (event : RelayEvent) (transition : LeaseCapacityTransition) (s : Store) : Store → Prop
  | job {t : Store} (h : t = s ∨ JobWriting target s t) :
      Recovering T original target leases event transition s t
  | event {u t : Store} (hu : JobWritten target s u) (h : EventWriting event u t) :
      Recovering T original target leases event transition s t
  | lease {u x t : Store} (hu : JobWritten target s u) (hx : EventWritten event u x)
      (h : Tearing (.staleLeaseRecovery original target leases event transition) transition T
        (T.remove (leases.map Lease.leaseId)) x t) (hordered : LeaseBeforeManifest leases t) :
      Recovering T original target leases event transition s t

/-- A recovery is complete. -/
def Recovered (T : LeaseTable) (original target : RelayJob) (leases : List Lease)
    (event : RelayEvent) (transition : LeaseCapacityTransition) (s t : Store) : Prop :=
  ∃ u x, JobWritten target s u ∧ EventWritten event u x ∧
    Moved (TransitionIntent.key (.staleLeaseRecovery original target leases event transition))
      (T.remove (leases.map Lease.leaseId)) x t

omit [Platform] in
theorem recoveryEventFile.not_ledgerFile {key : IntentKey} {p : Path}
    (hp : recoveryEventFile event p) : ¬ ledgerFile key p := by
  rcases hp with rfl | rfl <;> rintro (h | h | h) <;> first | exact h | cases h

theorem EventReady.frame {A : Path → Prop} (h : EventReady s event) (hst : Agree A s t)
    (hA : ∀ p, A p → ¬ recoveryEventFile event p) : EventReady t event := by
  refine ⟨?_, ?_⟩
  · rw [hst _ fun hp => hA _ hp (.inl rfl)]
    exact h.record
  · rw [hst _ fun hp => hA _ hp (.inr rfl)]
    exact h.index

omit [Platform] in
theorem jobWriteFile.not_recoveryEventFile {jobId : DurableRecordId} {p : Path}
    (hp : jobWriteFile jobId p) : ¬ recoveryEventFile event p := by
  rintro (rfl | rfl) <;>
    simp [jobWriteFile, cleanupReceipt, derivedFile, membershipFile, schedulerFile, jobCopy] at hp

variable [Entropy]

/-- **The recovery of a job, or the replay of its intent**, from wherever it stopped before.  It
is refused only for a job that cannot be written or an event whose number is taken. -/
theorem wp_applyStaleLeaseRecoveryIntent {Q : Post RelayJob}
    (hR : Recovery T original target leases event transition) (hT : T.Named) (hjobs : JobsOk s)
    (h : Tearing (.staleLeaseRecovery original target leases event transition) transition T
      (T.remove (leases.map Lease.leaseId)) s₀ s) (hready : RecoveryReady original leases s)
    (hcur : s.read (.job original.jobId) = some original ∨
      s.read (.job original.jobId) = some target)
    (hC : ∀ t, Recovering T original target leases event transition s t → C t)
    (hC' : ∀ t, Recovered T original target leases event transition s t → C t)
    (hQ : ∀ t w, Recovered T original target leases event transition s t → Q target t w)
    (hE : ∀ err t w, ¬ Writable s target → (t = s ∨ JobWriting target s t) → E err t w)
    (hE' : ∀ err u t w, ¬ EventReady s event → JobWritten target s u → EventWriting event u t →
      E err t w) :
    wp (applyStaleLeaseRecoveryIntent original target leases event transition) C Q E s v := by
  have hledger : ∀ p, jobWriteFile target.jobId p → ¬ ledgerFile
      (TransitionIntent.key (.staleLeaseRecovery original target leases event transition)) p :=
    fun p hp => hp.not_ledgerFile rfl
  unfold applyStaleLeaseRecoveryIntent
  rw [wp_bind, wp_require, hR.valid]
  refine ⟨fun _ => ?_, nofun⟩
  rw [wp_bind]
  refine wp_readJob hjobs ?_
  have hknown : (s.read (.job original.jobId) == some original ||
      s.read (.job original.jobId) == some target) = true := by
    rcases hcur with hcur | hcur <;> simp [hcur]
  rw [wp_bind, wp_require, hknown]
  refine ⟨fun _ => ?_, nofun⟩
  rw [wp_bind]
  refine wp_checkRecoveredLeases hR hT h ?_ fun hnot => (hnot hready).elim
  rw [wp_bind]
  refine wp_writeJob (fun t ht => hC t (.job (.inr ht)))
    (fun u hu => hC u (.event hu (.refl event u))) (fun u w hu => ?_) hE
  have hu' := h.rebase hu.agree hledger
  rw [wp_bind]
  refine wp_writeRecoveryEvent (fun t ht => hC t (.event hu ht)) (fun x w hx => ?_)
    fun err t w hnot ht => hE' err u t w
      (fun hev => hnot (hev.frame hu.agree fun p hp => hp.not_recoveryEventFile)) hu ht
  have hx' := hu'.rebase hx.agree fun p hp => hp.not_ledgerFile
  have hordered : LeaseBeforeManifest leases x := by
    intro lease hlease hpres
    have hread : ∀ p, leaseFile p → x.read p = s.read p := fun p hp => by
      rw [hx.agree p fun hp' => hp'.not_ledgerFile (.inl hp : ledgerFile .leaseIndexRepair p),
        hu.agree p fun hp' => hledger p hp' (.inl hp)]
    rw [hread _ (by trivial)] at hpres ⊢
    exact (hready lease hlease).2 hpres
  rw [wp_bind]
  refine wp_deleteRecoveredLeases hR hT hx' hordered
    (fun t ht hord => hC t (.lease hu hx (hx'.moved ht) hord)) fun t w ht hord hfiles => ?_
  simp only [wp_bind, wp_pure]
  rw [← wp_bind]
  refine (hx'.moved ht).wp_commit hR.between rfl hR.between.after hfiles
    (fun y hy hfiles => hC y (.lease hu hx hy fun lease hlease hpres => ?_))
    (fun y hy => hC' y ⟨u, x, hu, hx, hy⟩) fun y w hy => hQ y w ⟨u, x, hu, hx, hy⟩
  rw [hfiles _ (by trivial), LeaseTable.file_lease_remove (List.mem_map_of_mem hlease)] at hpres
  cases hpres

/-! ### From rest -/

/-- The store in which the intent of a recovery has been written. -/
def recoveryStart (original target : RelayJob) (leases : List Lease) (event : RelayEvent)
    (transition : LeaseCapacityTransition) (s : Store) : Store :=
  s.write (.intent (TransitionIntent.key
    (.staleLeaseRecovery original target leases event transition)))
      (.staleLeaseRecovery original target leases event transition)

/-- What a recovery decides in a queue at rest. -/
structure RecoveryDecided (T : LeaseTable) (s : Store) (job : RelayJob) (expired : List Lease)
    (maxAttempts : Int) (target : RelayJob) (event : RelayEvent)
    (transition : LeaseCapacityTransition) : Prop
    extends Recovery T job target expired event transition where
  state : target.state = if maxAttempts ≤ job.attempts then .failed else .queued
  unused : s.read (.event event.jobId event.seq) = none
  begun : Tearing (.staleLeaseRecovery job target expired event transition) transition T
    (T.remove (expired.map Lease.leaseId)) s (recoveryStart job target expired event transition s)

section

omit [Platform] [Entropy]

/-- What a recovery writes into its intent passes the checks of the replay. -/
theorem recoveryIntentValid_recoveredJob {seq : Nat} {createdAt : Time}
    (htgt : target = recoveredJob original target.state target.updatedAt)
    (hstate : target.state = .queued ∨ target.state = .failed)
    (hheld : original.state.held = true) (hseq : 1 ≤ seq) (hsome : (!leases.isEmpty) = true)
    (hnd : (leases.map Lease.leaseId).Nodup)
    (hjobIds : (leases.all fun lease => lease.jobId == original.jobId) = true) :
    recoveryIntentValid original target leases
      { jobId := original.jobId, seq, eventType := recoveryEventType target.state,
        message := recoveryMessage target.state, createdAt,
        payload := recoveryPayload original target.state leases } = true := by
  have hchosen : (target.state == .queued || target.state == .failed) = true := by
    rcases hstate with h | h <;> simp [h]
  have hfields : target.jobId = original.jobId ∧ target.cluster = original.cluster ∧
      target.kind = original.kind ∧ target.leasedBy = none := by
    rw [htgt]
    exact ⟨rfl, rfl, rfl, rfl⟩
  have hsame : (target == recoveredJob original target.state target.updatedAt) = true :=
    beq_iff_eq.2 htgt
  simp only [recoveryIntentValid, hfields, hheld, hchosen, hsame, hsome, hjobIds, hseq, hnd,
    beq_self_eq_true, Option.isNone_none, decide_true, Bool.and_self]

theorem wp_nextEventSeq {Q : Post Nat} {jobId : DurableRecordId}
    (hQ : ∀ seq, 1 ≤ seq → s.read (.event jobId seq) = none → Q seq s v)
    (hE : ∀ err, E err s v) : wp (nextEventSeq jobId) C Q E s v :=
  wp_nextEventSeq_first (fun _ seq _ hlt hnone _ => hQ seq (Nat.one_le_of_lt hlt) hnone) hE

theorem readOnly_checkExpiredLease (job : RelayJob) (lease : Lease) :
    ReadOnly (checkExpiredLease job lease) :=
  .bind (.ofExcept _) fun _ => .bind (readOnly_readLeaseIndexIdentity _) fun _ =>
    .bind (.ofExcept _) fun _ => .guard <|
      .bind (readOnly_requireEmptyLeaseRef ..) fun _ => .bind (readOnly_requireEmptyLeaseRef ..)
        fun _ => .bind (readOnly_requireEmptyLeaseRef ..) fun _ =>
          .bind (readOnly_requireEmptyLeaseRef ..) fun _ => readOnly_requireEmptyLeaseRef ..

/-- A queue in which the intent of a recovery has just been written. -/
theorem AtRest.recoveryReady (hrest : AtRest T s) (hT : T.Named)
    (hlive : ∀ lease ∈ leases, T.read lease.leaseId = some (.of lease original))
    (hst : ∀ p, leaseFile p → t.read p = s.read p) : RecoveryReady original leases t := by
  intro lease hlease
  have hcanon : t.read (.lease lease.leaseId) = some lease := by
    rw [hst _ (by trivial), hrest.files _ (by trivial), LeaseTable.file_lease, hlive lease hlease]
    rfl
  have hman : t.read (.leaseIndex (leaseIndexToken lease.leaseId)) =
      some (LiveLease.of lease original).identity := by
    rw [hst _ (by trivial)]
    exact hrest.manifest (e := .of lease original) hT (hlive lease hlease)
  rw [hcanon, hman]
  exact ⟨fun _ => rfl, fun _ => rfl⟩

end

/-- **A recovery from rest**: refused before its intent, stopped on the way, or complete. -/
theorem wp_recoverExpiredLeases {Q : Post RelayJob} {job : RelayJob}
    {expired : List Lease} {maxAttempts : Int} (hjobs : JobsOk s) (hT : T.Backed s)
    (hrest : AtRest T s) (hjob : s.read (.job job.jobId) = some job)
    (hlive : ∀ lease ∈ expired, T.read lease.leaseId = some (.of lease job))
    (hC : ∀ target event transition t,
      RecoveryDecided T s job expired maxAttempts target event transition →
        Recovering T job target expired event transition
          (recoveryStart job target expired event transition s) t → C t)
    (hC' : ∀ target event transition t,
      RecoveryDecided T s job expired maxAttempts target event transition →
        Recovered T job target expired event transition
          (recoveryStart job target expired event transition s) t → C t)
    (hQ : ∀ target event transition t w,
      RecoveryDecided T s job expired maxAttempts target event transition →
        Recovered T job target expired event transition
          (recoveryStart job target expired event transition s) t → Q target t w)
    (hE : ∀ err w, E err s w)
    (hE₁ : ∀ target event transition err t w,
      RecoveryDecided T s job expired maxAttempts target event transition →
        ¬ Writable (recoveryStart job target expired event transition s) target →
          (t = recoveryStart job target expired event transition s ∨
            JobWriting target (recoveryStart job target expired event transition s) t) → E err t w)
    (hE₂ : ∀ target event transition err u t w,
      RecoveryDecided T s job expired maxAttempts target event transition →
        ¬ EventReady (recoveryStart job target expired event transition s) event →
          JobWritten target (recoveryStart job target expired event transition s) u →
            EventWriting event u t → E err t w) :
    wp (recoverExpiredLeases job expired maxAttempts) C Q E s v := by
  obtain ⟨pair, hholds, hexact⟩ := hrest.pair
  have hcl := hjobs.cluster _ _ hjob
  unfold recoverExpiredLeases
  refine wp_require_then (fun hsome => ?_) fun _ => hE _ _
  refine wp_require_then (fun hheld => ?_) fun _ => hE _ _
  rw [wp_bind, wp_utcNow]
  refine wp_require_then (fun hids => ?_) fun _ => hE _ _
  rw [wp_bind]
  refine (Prog.ReadOnly.each expired fun lease _ => readOnly_checkExpiredLease job lease).wp
    (fun _ w => ?_) hE
  rw [wp_bind]
  refine wp_nextEventSeq (fun seq hseq hunused => ?_) fun err => hE err _
  simp only [Bool.and_eq_true, decide_eq_true_eq] at hids
  obtain ⟨hnd, hjobIds⟩ := hids
  have hlen : expired.length ≠ 0 := by
    rcases expired with _ | ⟨lease, _⟩
    · cases hsome
    · simp
  have hscopes : T.scopes = Multiset.replicate expired.length (leaseClusterDigest job.cluster, job.kind) +
      (T.remove (expired.map Lease.leaseId)).scopes := by
    have hlives : ∀ id ∈ expired.map Lease.leaseId, ∃ e, T.read id = some e ∧
        e.scope = (leaseClusterDigest job.cluster, job.kind) := fun id hid => by
      obtain ⟨lease, hlease, rfl⟩ := List.mem_map.1 hid
      exact ⟨_, hlive lease hlease, rfl⟩
    have hremove := LeaseTable.scopes_remove hnd hlives
    rwa [List.length_map] at hremove
  have hsmall : Multiset.card (T.remove (expired.map Lease.leaseId)).scopes ≤
      maxLiveLeaseRecords := by
    have := hexact.small
    rw [hscopes, Multiset.card_add] at this
    omega
  rw [wp_bind, wp_utcNow, wp_bind]
  have hdeltas : applyScopeDeltas T.scopes [⟨job.cluster, job.kind, -(expired.length : Int)⟩] =
      .ok (T.remove (expired.map Lease.leaseId)).scopes := by
    rw [hscopes]
    exact applyScopeDeltas_remove hlen
  refine wp_prepareLeaseCapacityTransition hholds hexact hdeltas hsmall
    fun transition w hbtw hbefore _ => ?_
  generalize htgt : recoveredJob job _ _ = target
  have hstate : target.state = if maxAttempts ≤ job.attempts then .failed else .queued := by
    rw [← htgt]
    rfl
  generalize hev : RelayEvent.mk _ _ _ _ _ _ = event
  have hval : recoveryIntentValid job target expired event = true := by
    have hchosen : target.state = .queued ∨ target.state = .failed := by
      rw [hstate]
      split <;> simp
    have htgt' : target = recoveredJob job target.state target.updatedAt := by
      rw [hstate, ← htgt]
      rfl
    rw [← hev]
    exact recoveryIntentValid_recoveredJob htgt' hchosen hheld hseq hsome hnd hjobIds
  have hbegin : Tearing (.staleLeaseRecovery job target expired event transition) transition T
      (T.remove (expired.map Lease.leaseId)) s
        (recoveryStart job target expired event transition s) :=
    Tearing.begin hrest.files hholds hbefore
  have hR : RecoveryDecided T s job expired maxAttempts target event transition :=
    { valid := hval, live := hlive, cluster := hcl, between := hbtw, state := hstate,
      unused := by rw [← hev]; exact hunused, begun := hbegin }
  have hsame : ∀ p, p ≠ .intent (TransitionIntent.key
      (.staleLeaseRecovery job target expired event transition)) →
        (recoveryStart job target expired event transition s).read p = s.read p :=
    fun p hp => read_write_ne _ hp
  have hleases : ∀ p, leaseFile p →
      (recoveryStart job target expired event transition s).read p = s.read p :=
    fun p hp => hsame p (by rintro rfl; exact hp)
  simp only [writeTransitionIntent, wp_bind, wp_utcNow, wp_put]
  refine ⟨hC target event transition _ hR (.job (.inl rfl)), ?_⟩
  refine wp_applyStaleLeaseRecoveryIntent hR.toRecovery hT.named ?_ hbegin
    (hrest.recoveryReady hT.named hlive hleases) (.inl ?_)
    (fun t ht => hC target event transition t hR ht)
    (fun t ht => hC' target event transition t hR ht)
    (fun t w ht => hQ target event transition t w hR ht)
    (fun err t w hnot ht => hE₁ target event transition err t w hR hnot ht)
    fun err u t w hnot hu ht => hE₂ target event transition err u t w hR hnot hu ht
  · exact hjobs.frame fun p hp => hsame p fun heq => by
      rw [heq] at hp
      exact hp
  · exact (hsame _ (by simp)).trans hjob

end

end ClioQueue
