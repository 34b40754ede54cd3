/-
# Journals of synchronisation intents

Without leases the journal only ever holds the intents of jobs, tasks and gateway
sessions whose derived files are being synchronised.  Their replay never touches a
canonical record, an order, an edge or the migration state, and only removes
intents (`SyncStep`).
-/

import ClioQueue.ReplayFootprint

namespace ClioQueue

open Durable Durable.Prog

/-- An intent to synchronise derived files. -/
def TransitionIntent.isSync : TransitionIntent → Bool
  | .jobSync .. | .taskSync .. | .gatewaySync _ => true
  | _ => false

/-- The journal holds synchronisation intents only. -/
def SyncOnly (s : Store) : Prop :=
  ∀ key I, s.read (.intent key) = some I → I.isSync = true

/-- The files derived from jobs, tasks and gateway sessions. -/
def syncFile : Path → Prop
  | .jobActive _ | .jobQueued _ | .jobIndex _ => True
  | .ownerSessionJob .. | .schedulerRefs .. | .schedulerProtection .. | .schedulerJob .. => True
  | .taskByJob .. | .taskOrder .. | .activeTask .. => True
  | .gatewaysBy .. | .gatewayReverseRef .. | .activeGatewayRefByJob ..
  | .activeGatewayRefBySession .. => True
  | _ => False

theorem derivedFile.syncFile {jobId : DurableRecordId} {p : Path} (h : derivedFile jobId p) :
    syncFile p := by
  rcases h with h | h | h
  all_goals
    cases p <;> trivial

theorem taskCopy.syncFile {p : Path} (h : taskCopy p) : syncFile p := by
  cases p <;> trivial

theorem schedulerFile.syncFile {p : Path} (h : schedulerFile p) : syncFile p := by
  cases p <;> trivial

theorem gatewayFile.syncFile {p : Path} (h : gatewayFile p) : syncFile p := by
  cases p <;> trivial

/-- What a replay of synchronisation intents can do: rewrite derived files and remove intents. -/
structure SyncStep (s t : Store) : Prop where
  agree : Files.Agree (fun p => syncFile p ∨ ∃ key, p = .intent key) s t
  intents : ∀ key, t.read (.intent key) = s.read (.intent key) ∨ t.read (.intent key) = none

namespace SyncStep

variable {s t u : Store}

theorem refl (s : Store) : SyncStep s s := ⟨Files.Agree.refl _ s, fun _ => .inl rfl⟩

theorem trans (h : SyncStep s t) (h' : SyncStep t u) : SyncStep s u := by
  refine ⟨h.agree.trans h'.agree, fun key => ?_⟩
  rcases h'.intents key with hsame | hnone
  · rw [hsame]
    exact h.intents key
  · exact .inr hnone

theorem read (h : SyncStep s t) {p : Path} (hp : ¬ syncFile p) (hp' : ∀ key, p ≠ .intent key) :
    t.read p = s.read p :=
  h.agree p fun hor => hor.elim hp fun ⟨key, hkey⟩ => hp' key hkey

theorem of_agree (h : Files.Agree syncFile s t) : SyncStep s t :=
  ⟨h.mono fun _ => .inl, fun key => .inl (h (.intent key) id)⟩

theorem unlink (s : Store) (key : IntentKey) : SyncStep s (s.unlink (.intent key)) := by
  have hagree : Files.Agree (fun p => ∃ key, p = Path.intent key) s (s.unlink (.intent key)) :=
    Files.agree_unlink ⟨key, rfl⟩ s
  refine ⟨hagree.mono fun _ => .inr, fun other => ?_⟩
  by_cases heq : other = key
  · subst heq
    exact .inr (Files.read_unlink_self ..)
  · exact .inl (Files.read_unlink_ne (by simpa using heq))

end SyncStep

section

variable [Platform] [Entropy] {s : Store} {v : Supply}

omit [Platform] [Entropy] in
/-- Derived files first, then the intent. -/
theorem within_sync {m : Op Unit} (h : Confined syncFile m) (key : IntentKey) :
    Within SyncStep (m >>= fun _ => unlink (.intent key)) := by
  refine within_bind (R := SyncStep) (fun _ _ _ => SyncStep.trans) (fun s v => ?_) fun _ =>
    within_durably fun t => SyncStep.unlink t key
  exact h.wp (fun _ => SyncStep.of_agree) (fun _ _ _ => SyncStep.of_agree)
    fun _ _ _ => SyncStep.of_agree

/-- The replay of one synchronisation intent. -/
theorem within_applySync {I : TransitionIntent} (h : I.isSync = true) :
    Within SyncStep (applyIntent I) := by
  have hdrop : ∀ {m : Op Unit}, Within SyncStep m →
      Within SyncStep (m >>= fun _ => (pure [] : Op (List RelayJob))) := fun hm =>
    within_bind (R := SyncStep) (fun _ _ _ => SyncStep.trans) hm fun _ =>
      within_pure SyncStep.refl _
  have hread : ∀ {α β : Type} {m : Op α} {k : α → Op β}, m.ReadOnly →
      (∀ a, Within SyncStep (k a)) → Within SyncStep (m >>= k) := fun hm hk =>
    within_bind (R := SyncStep) (fun _ _ _ => SyncStep.trans)
      (fun s _ => hm.wp (fun _ _ => SyncStep.refl s) fun _ _ => SyncStep.refl s) hk
  cases I with
  | jobSync jobId =>
    refine hdrop (hread (readOnly_readJob jobId) fun job => within_sync ?_ _)
    rcases job with _ | job
    · exact .pure _
    · exact (confined_syncJobDerived job).mono fun _ => derivedFile.syncFile
  | taskSync =>
    refine hdrop (hread ?_ fun task => within_sync ?_ _)
    · exact .bind (readOnly_read _) fun _ => .guard <| .pure _
    · rcases task with _ | task
      · exact .pure _
      · refine (confined_syncTaskDerived task).mono fun p hp => ?_
        exact hp.elim taskCopy.syncFile schedulerFile.syncFile
  | gatewaySync sessionId =>
    exact hdrop (within_sync
      ((confined_syncGatewaySessionDerived sessionId).mono fun _ => gatewayFile.syncFile) _)
  | leaseIndexRepair => cases h
  | leaseAcquire => cases h
  | leaseSync => cases h
  | leaseDelete => cases h
  | staleLeaseRecovery => cases h

/-- **The replay of a journal of synchronisation intents.** -/
theorem wp_recoverPendingTransitions_sync {C : Store → Prop} {Q : Post Unit}
    {E : Post RelayError} (hs : SyncOnly s) (hC : ∀ t, SyncStep s t → C t)
    (hQ : ∀ t w, SyncStep s t → Q () t w) (hE : ∀ err t w, SyncStep s t → E err t w) :
    wp recoverPendingTransitions C Q E s v := by
  unfold recoverPendingTransitions reconcileTransitionIntents boundedListing
  rw [wp_bind, wp_bind, wp_bind, wp_listing]
  refine wp_require_then (fun _ => (wp_pure _).2 ?_) fun _ => hE _ _ _ (.refl s)
  have hsync : ∀ I ∈ s.collect intentsListed, I.isSync = true := by
    intro I hI
    obtain ⟨p, c, hread, hc⟩ := Files.mem_collect.1 hI
    cases p <;> cases hc
    exact hs _ _ hread
  have hloop : Within SyncStep (gather applyIntent
      ((s.collect intentsListed).insertionSort fun a b => a.order ≤ b.order)) := by
    refine within_gather SyncStep.refl (fun _ _ _ => SyncStep.trans) _ fun I hI => ?_
    exact within_applySync (hsync I ((List.mem_insertionSort _).1 hI))
  exact hloop.wp hC (fun _ t w ht => (wp_pure _).2 (hQ t w ht)) hE

end

end ClioQueue
