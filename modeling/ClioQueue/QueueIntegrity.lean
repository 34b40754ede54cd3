/-
# What holds between any two writes

A lease operation may stop after each of its durable writes.  Whatever it leaves, at most one
capacity transition is pending, and records refer to records that are there; from there the replay
of the journal, itself stopped any number of times, brings the queue to rest.
-/

import ClioQueue.ConcurrencyLimits
import ClioQueue.IngestQuotaRuns

namespace ClioQueue

open Durable Durable.Prog

section

variable [Platform] {s₀ s t : Store} {P : LeaseTable → Prop}

/-! ### Every state of a run -/

/-- Records stand under their names and refer to records that are there, a stale copy of a job has
its intent, and at most one capacity transition is pending. -/
structure Intact (s : Store) : Prop where
  job : ∀ id job, s.read (.job id) = some job → job.jobId = id ∧ job.cluster ≠ ""
  lease : ∀ id lease, s.read (.lease id) = some lease → (s.read (.job lease.jobId)).isSome
  queued : ∀ id copy, s.read (.jobQueued id) = some copy → (s.read (.job id)).isSome ∧
    (s.read (.intent (.jobSync id)) = none →
      s.read (.job id) = some copy ∧ copy.state = .queued)
  intent : ∀ key I, s.read (.intent key) = some I → I.key = key
  exclusive : ∀ key key' I I', s.read (.intent key) = some I → s.read (.intent key') = some I' →
    I.carriesCapacity = true → I'.carriesCapacity = true → key = key'

omit [Platform] in
/-- In a recoverable ledger records stand under their names, refer to records that are there, and at
most one capacity transition is pending. -/
theorem Ledger.intact (h : Ledger P s) : Intact s := by
  obtain ⟨_, hbooks⟩ : ∃ T, Books T s := by
    cases h with
    | rest hbooks | torn hbooks => exact ⟨_, hbooks⟩
  have hjobs := hbooks.jobs
  have hcarries : ∀ {key I}, s.read (.intent key) = some I → I.carriesCapacity = true →
      key.carriesCapacity = true := by
    intro key I hread hcap
    rwa [← (hbooks.intents key I hread).1, TransitionIntent.carriesCapacity_key]
  refine ⟨fun id job hread => ⟨hjobs.named id job hread, hjobs.cluster id job hread⟩,
    fun id lease hread => ?_,
    fun id copy hread => ⟨hjobs.copied id (by rw [hread]; rfl), hjobs.queued id copy hread⟩,
    fun key I hread => (hbooks.intents key I hread).1, fun key key' I I' hread hread' hcap hcap' => ?_⟩
  · obtain ⟨T, -, hcovers⟩ := h.cover
    obtain ⟨e, he, hid⟩ := hcovers.lease id lease hread
    obtain ⟨job, hjob, -⟩ := hcovers.backed.job id e he
    rw [← hid, hjob]
    rfl
  · -- at rest no capacity transition is pending, and a torn ledger has one
    cases h with
    | rest _ hquiet =>
      rw [hquiet key (hcarries hread hcap)] at hread
      cases hread
    | @torn _ pending _ halone _ =>
      have hone : ∀ {k J}, s.read (.intent k) = some J → J.carriesCapacity = true →
          k = pending.key := by
        intro k J hJ hcap
        by_contra hne
        rw [halone k (hcarries hJ hcap) hne] at hJ
        cases hJ
      exact (hone hread hcap).trans (hone hread' hcap').symm

/-- **The queue stays intact**, wherever the operations of a run stop. -/
theorem intact_of_run (h₀ : FreshQueue s₀) (hrun : Relation.ReflTransGen LeaseCall.Step s₀ s) :
    Intact s :=
  (ledger_of_run h₀ hrun).intact

omit [Platform] in
/-- A submission, and an acquisition that has stopped. -/
theorem run_sampleTorn :
    Relation.ReflTransGen (@LeaseCall.Step samplePlatform) sampleQueue (sampleTorn none) := by
  have h₁ : @LeaseCall.Step samplePlatform sampleQueue sampleSubmitted :=
    LeaseCall.step_stopped trivial (by decide +kernel) fun _ => by decide +kernel
  have h₂ : @LeaseCall.Step samplePlatform sampleSubmitted (sampleTorn none) :=
    LeaseCall.step_stopped trivial (by decide +kernel) trivial
  exact .head h₁ (.single h₂)

omit [Platform] in
/-- The acquisition leaves two intents, of which one carries a transition. -/
theorem intact_of_run_sample :
    ((sampleTorn none).collect intentsListed).map TransitionIntent.carriesCapacity =
        [false, true] ∧ Intact (sampleTorn none) := by
  let := samplePlatform
  exact ⟨by decide +kernel, intact_of_run freshQueue_sampleQueue run_sampleTorn⟩

/-! ### Replay -/

/-- A replay of the journal, stopped after one of its durable writes or run to its end. -/
def ReplayStep (s t : Store) : Prop :=
  ∃ (_ : Entropy) (v : Supply), t ∈ recoverPendingTransitions.halts s v

theorem Ledger.wp_recover [Entropy] {v : Supply} (h : Ledger P s) :
    wp recoverPendingTransitions (Ledger P) (fun _ t _ => (∃ U, Settled U t ∧ P U) ∧ NoNew s t)
      (fun _ t _ => Ledger P t) s v := by
  unfold recoverPendingTransitions
  exact wp_then h.wp_reconcile fun _ _ _ ht => (wp_pure _).2 ht

theorem ReplayStep.ledger (h : Ledger P s) (hstep : ReplayStep s t) : Ledger P t := by
  obtain ⟨_, v, ht⟩ := hstep
  refine wp_halts (wp_mono h.wp_recover (fun _ h => h) (fun _ t _ ht => ?_) fun _ _ _ h => h) h t ht
  obtain ⟨⟨U, hsettled, hP⟩, -⟩ := ht
  exact .rest hsettled.books hsettled.noCapacity hsettled.atRest hP

/-- What a replay of `t` that returns has made of the queue. -/
structure SettledBy (t u : Store) : Prop where
  quiet : ∀ key, u.read (.intent key) = none
  indexes : IndexesAgree u
  pair : ∃ pair, CapacityCounts u pair
  noNew : NoNew t u
  again : ∀ x, ReplayStep u x → x = u

/-- **Recovery settles the queue.**  From wherever a run has stopped, after any replays that were
stopped themselves, a replay that returns leaves no intent, indexes that agree with the leases and
a pair that counts them; it adds no job, lease or idempotency record, and replaying again writes
nothing. -/
theorem recovery_settles_of_run [Entropy] {v : Supply} (h₀ : FreshQueue s₀)
    (hrun : Relation.ReflTransGen LeaseCall.Step s₀ s)
    (hstops : Relation.ReflTransGen ReplayStep s t)
    (hreturns : (recoverPendingTransitions.run t v).result = .ok ()) :
    SettledBy t (recoverPendingTransitions.run t v).store := by
  have hledger : Ledger (fun _ => True) t := by
    clear hreturns
    induction hstops with
    | refl => exact ledger_of_run h₀ hrun
    | tail _ hstep ih => exact hstep.ledger ih
  obtain ⟨⟨U, hsettled, -⟩, hnew⟩ := wp_result hledger.wp_recover hreturns
  refine ⟨hsettled.quiet, hsettled.indexesAgree, hsettled.atRest.capacityCounts hsettled.books,
    hnew, fun x hx => ?_⟩
  obtain ⟨_, w, hx⟩ := hx
  refine wp_halts (I := fun y => y = _) ?_ rfl x hx
  exact Upkeep.wp_recoverPendingTransitions_settled hsettled rfl

omit [Platform] in
/-- The acquisition that has stopped is taken back. -/
theorem recovery_settles_of_run_sample :
    let u := ((@recoverPendingTransitions samplePlatform sampleEntropy).run (sampleTorn none)
      sampleSupply).store
    (u.collect jobRecords).map RelayJob.state = [.queued] ∧
      @SettledBy samplePlatform (sampleTorn none) u := by
  let := samplePlatform
  let := sampleEntropy
  refine ⟨by decide +kernel, recovery_settles_of_run freshQueue_sampleQueue run_sampleTorn .refl ?_⟩
  have hfine : (recoverPendingTransitions.run (sampleTorn none) sampleSupply).result.toOption.isSome
      = true := by decide +kernel
  rcases hres : (recoverPendingTransitions.run (sampleTorn none) sampleSupply).result with _ | _
  · rw [hres] at hfine
    cases hfine
  · rfl

end

end ClioQueue
