/-
# Reading cancellation records back

Updates of a cancellation record are written through `model_copy`, which checks no
bounds, while every read validates them.  A record leaves the validated domain in
two ways only: an identity is registered beside a thousand others, or an identity
without a provider is claimed under a provider name that is too long.  In every run
without these (`CancelCall.WithinBounds`), each record on disk is read back as it was
written and `scan_due_scheduler_cancellations` succeeds
(`cancel_records_readable_of_run`).
-/

import Mathlib.Data.Nat.Digits.Lemmas
import ClioQueue.SchedulerCancelExclusion
import ClioQueue.SchedulerCancelHandover

namespace ClioQueue

variable {n : Nat} {d : SchedulerCancelDisposition} {r : SchedulerCancelPending}

open Durable Durable.Prog

/-! ### Validity of a changed record -/

namespace SchedulerCancelPending

theorem mem_replaced {item d : SchedulerCancelDisposition} {ds : List SchedulerCancelDisposition}
    (h : d ∈ replaced item ds) : d = item ∨ d ∈ ds := by
  induction ds with
  | nil => exact absurd h List.not_mem_nil
  | cons x ds ih =>
    rw [replaced] at h
    split_ifs at h
    · rcases List.mem_cons.1 h with h | h
      · exact .inl h
      · exact .inr (.tail _ h)
    · rcases List.mem_cons.1 h with h | h
      · exact .inr (h ▸ .head _)
      · rcases ih h with h | h
        · exact .inl h
        · exact .inr (.tail _ h)

@[simp]
theorem length_replaced (item : SchedulerCancelDisposition)
    (ds : List SchedulerCancelDisposition) : (replaced item ds).length = ds.length := by
  induction ds with
  | nil => rfl
  | cons x ds ih =>
    rw [replaced]
    split_ifs
    · rfl
    · rw [List.length_cons, ih, List.length_cons]

/-- A record whose replaced disposition is valid. -/
theorem Valid.replaced {r : SchedulerCancelPending} (h : r.Valid)
    {item : SchedulerCancelDisposition} (hitem : item.Valid) (updatedAt : Time) :
    Valid
      { r with dispositions := SchedulerCancelPending.replaced item r.dispositions, updatedAt } := by
  refine ⟨h.cluster, h.reason, ?_, fun d hd => ?_⟩
  · show (SchedulerCancelPending.replaced item r.dispositions).length ≤ 1000
    rw [length_replaced]
    exact h.length
  · rcases mem_replaced hd with rfl | hd
    · exact hitem
    · exact h.dispositions d hd

end SchedulerCancelPending

theorem SchedulerCancelDisposition.Valid.unclaimed (h : d.Valid) : d.unclaimed.Valid :=
  ⟨h.schedulerJobId, h.provider, h.attempts, h.confirmationAttempts, h.lastError, rfl, rfl⟩

/-- A claim under a provider name of the right length is valid. -/
theorem ClaimKind.claimed_valid {kind : ClaimKind} {provider : String} {id : DurableRecordId}
    {claimedAt expiresAt : Time} (h : d.Valid) (hprov : lengthWithin 1 128 provider = true)
    (hdue : kind.due d claimedAt = true) (hexp : claimedAt < expiresAt) :
    (kind.claimed d provider id claimedAt expiresAt).Valid := by
  have hsound : (kind.claimed d provider id claimedAt expiresAt).ClaimsSound :=
    ClaimKind.claimed_sound h.claimsSound hdue hexp
  rcases kind with _ | _
  all_goals
    exact ⟨h.schedulerJobId, hprov, h.attempts, h.confirmationAttempts, h.lastError,
      hsound.attempt, hsound.confirmation⟩

/-- **A change keeps a record valid**, when it adds no identity to a full record and its
claim has a provider name of the right length. -/
theorem CancelChange.valid {r' : SchedulerCancelPending} {label : CancelLabel}
    (h : CancelChange r label r') (hr : r.Valid)
    (hroom : ∀ sid, label = .registered ⟨r.cluster, r.jobId, sid⟩ → r.find sid = none → r.dispositions.length < 1000)
    (hname : ∀ kind claim d, label = .issued kind ⟨r.cluster, r.jobId, claim.schedulerJobId⟩ claim → r.find claim.schedulerJobId = some d → d.provider = none → claim.provider.length ≤ 128) :
    r'.Valid := by
  cases h with
  | registered sid provider verified createdAt updatedAt hnew hcand =>
    have hlen := hroom sid rfl hnew
    refine ⟨hr.cluster, hr.reason, ?_, fun d hd => ?_⟩
    · show (r.dispositions ++ [_]).length ≤ 1000
      rw [List.length_append, List.length_singleton]
      omega
    · rcases List.mem_append.1 hd with hd | hd
      · exact hr.dispositions d hd
      · rw [List.mem_singleton] at hd
        exact hd ▸ hcand
  | reinstated sid provider createdAt replacedAt updatedAt existing hfound href hcand =>
    have hexist := SchedulerCancelPending.find_valid hr hfound
    refine hr.replaced ?_ updatedAt
    exact ⟨hcand.schedulerJobId, hcand.provider, hexist.attempts,
      hexist.confirmationAttempts, hcand.lastError, rfl, rfl⟩
  | finalized | closed => exact ⟨hr.cluster, hr.reason, hr.length, hr.dispositions⟩
  | superseded =>
    refine ⟨hr.cluster, hr.reason, ?_, fun d hd => ?_⟩
    · show (r.dispositions.map _).length ≤ 1000
      rw [List.length_map]
      exact hr.length
    · obtain ⟨x, hx, rfl⟩ := List.mem_map.1 hd
      exact (hr.dispositions x hx).unclaimed
  | issued kind current claim hresolved hfound hdue hprov hknown hexp =>
    have hcur := SchedulerCancelPending.find_valid hr hfound
    refine hr.replaced ?_ claim.claimedAt
    refine ClaimKind.claimed_valid hcur ?_ hdue hexp
    rcases hold : current.provider with _ | known
    · have hmost := hname kind claim current rfl hfound hold
      have hleast : 1 ≤ claim.provider.length := by
        have hne : claim.provider.length ≠ 0 := fun hzero =>
          hprov (String.length_eq_zero_iff.1 hzero)
        omega
      rw [lengthWithin, decide_eq_true hleast, decide_eq_true hmost]
      rfl
    · have hval := hcur.provider
      rw [hold] at hval
      rw [← hknown known hold]
      exact hval
  | accepted kind sid claimId current item updatedAt hfound hclaim hrecorded =>
    exact hr.replaced hrecorded.valid updatedAt

/-! ### Steps -/

/-- The records of a job are valid, the pending one is under its own name and the completed
one is complete. -/
structure CancelJobReadable (cluster : String) (jobId : DurableRecordId)
    (pending completed : Option SchedulerCancelPending) : Prop where
  work : ∀ r, pending = some r → r.Valid ∧ r.cluster = cluster ∧ r.jobId = jobId
  done : ∀ r, completed = some r → r.Valid ∧ r.complete = true

/-- A call stays within the bounds that updates do not check: a new identity finds room in
the record, and an identity without a provider is claimed under a name that fits. -/
def CancelCall.WithinBounds (s : Store) : CancelCall → Prop
  | .registerIdentityOnce jobId cluster schedulerJobId _ _ =>
    ∀ r, s.read (cancelPendingFile cluster jobId) = some r → r.find schedulerJobId = none →
      r.dispositions.length < 1000
  | .claimAttempt jobId cluster schedulerJobId provider _ _
  | .claimConfirmation jobId cluster schedulerJobId provider _ _ =>
    ∀ r d, s.read (cancelPendingFile cluster jobId) = some r → r.find schedulerJobId = some d →
      d.provider = none → provider.length ≤ 128
  | _ => True

section

variable {s : Store} {call : CancelCall} {r : SchedulerCancelPending}

section

variable (h : call.WithinBounds s) (hread : s.read (cancelPendingFile r.cluster r.jobId) = some r)

include h hread

theorem CancelCall.WithinBounds.room {sid : String}
    (hlab : call.Permits (.registered ⟨r.cluster, r.jobId, sid⟩)) (hnew : r.find sid = none) :
    r.dispositions.length < 1000 := by
  obtain ⟨provider, _, rfl⟩ := hlab.registration
  exact h r hread hnew

theorem CancelCall.WithinBounds.name {kind : ClaimKind}
    {claim : SchedulerCancelClaim} {d : SchedulerCancelDisposition}
    (hlab : call.Permits (.issued kind ⟨r.cluster, r.jobId, claim.schedulerJobId⟩ claim))
    (hfind : r.find claim.schedulerJobId = some d) (hnone : d.provider = none) :
    claim.provider.length ≤ 128 := by
  cases call with
  | claimAttempt | claimConfirmation =>
    rcases hlab with hlab | ⟨claim', hprov, hlab⟩
    · cases hlab
    · injection hlab with _ hkey hclaim
      injection hkey with hcl hj hsid
      subst hclaim hcl hj hsid
      rw [hprov]
      exact h r d hread hfind hnone
  | ensurePending | finalizeIdentities | completeIdentityScan | scanDue => cases hlab
  | registerIdentityOnce | recordAttempt | recordObservation =>
    rcases hlab with hlab | hlab <;> cases hlab

end

end

/-- **The records of a job stay readable** under a step whose changes keep them valid. -/
theorem CancelJobReadable.step {A : CancelLabel → Prop} {cluster : String} {jobId : DurableRecordId}
    {pending completed pending' completed' : Option SchedulerCancelPending}
    (h : CancelJobReadable cluster jobId pending completed)
    (hstep : CancelJobStep A cluster jobId pending completed pending' completed')
    (hval : ∀ r r' label, r.cluster = cluster → r.jobId = jobId → pending = some r → A label →
      r.Valid → CancelChange r label r' → r'.Valid) :
    CancelJobReadable cluster jobId pending' completed' := by
  cases hstep with
  | stays => exact h
  | drops => exact ⟨fun _ hr => (by cases hr), h.done⟩
  | creates record hcl hj hrec =>
    refine ⟨fun r hr => ?_, h.done⟩
    injection hr with hr
    subst hr
    exact ⟨hrec, hcl, hj⟩
  | changes hallow r r' hcl hj hread hr hchg =>
    refine ⟨fun r₁ hr₁ => ?_, h.done⟩
    injection hr₁ with hr₁
    subst hr₁
    obtain ⟨hcl', hj'⟩ := hchg.same_job
    exact ⟨hval r r' _ hcl hj hread hallow hr hchg, hcl'.trans hcl, hj'.trans hj⟩
  | finishes hallow r r' hcl hj hread hr hchg hcomp =>
    refine ⟨fun _ hr => (by cases hr), fun r₁ hr₁ => ?_⟩
    injection hr₁ with hr₁
    subst hr₁
    exact ⟨hval r r' _ hcl hj hread hallow hr hchg, hcomp⟩
  | tears hallow r r' hcl hj hread hr hchg hcomp =>
    refine ⟨h.work, fun r₁ hr₁ => ?_⟩
    injection hr₁ with hr₁
    subst hr₁
    exact ⟨hval r r' _ hcl hj hread hallow hr hchg, hcomp⟩

/-- Every record is readable, and the indexes are migrated. -/
structure CancelReadable (s : Store) : Prop where
  jobs : ∀ cluster jobId, CancelJobReadable cluster jobId
    (s.read (cancelPendingFile cluster jobId)) (s.read (cancelDispositionFile cluster jobId))
  migrated : ∃ state, s.read .migrationState = some state ∧ state.complete = true

section

variable [Platform] {s s₀ t : Store}

/-- A call within bounds, stopped after one of its durable writes or run to its end. -/
def CancelCall.BoundedStep (s t : Store) : Prop :=
  ∃ (_ : Entropy) (call : CancelCall) (v : Supply), call.WithinBounds s ∧ t ∈ call.prog.halts s v

/-- A call within the bounds of the records keeps every cancellation record readable. -/
theorem CancelReadable.step (h : CancelReadable s) (hstep : CancelCall.BoundedStep s t) :
    CancelReadable t := by
  obtain ⟨_, call, v, hbounds, ht⟩ := hstep
  have hleft := call.left_of_halts ht
  refine ⟨fun cluster jobId => (h.jobs cluster jobId).step (hleft.job cluster jobId) ?_, ?_⟩
  · rintro r _ _ rfl rfl hread hallow hr hchg
    refine hchg.valid hr (fun sid hlab => ?_) fun kind claim d hlab => ?_
    · exact hbounds.room hread (hlab ▸ hallow)
    · exact hbounds.name hread (hlab ▸ hallow)
  · have hsame : t.read .migrationState = s.read .migrationState :=
      hleft.read_other (fun _ _ => by simp) fun _ _ => by simp
    rw [hsame]
    exact h.migrated

theorem CancelReadable.steps (h : CancelReadable s)
    (hrun : Relation.ReflTransGen CancelCall.BoundedStep s t) : CancelReadable t := by
  induction hrun with
  | refl => exact h
  | tail _ hstep ih => exact ih.step hstep

/-! ### Scans -/

section Scans

variable {C : Store → Prop} {E : Post RelayError} {v : Supply}
  {entry : DurableRecordId × SchedulerCancelPending}

/-- A valid stored record is read back. -/
theorem wp_decodeStored_valid {stored : Option SchedulerCancelPending}
    {Q : Post (Option SchedulerCancelPending)}
    (hval : ∀ r, stored = some r → r.Valid) (hQ : Q stored s v) :
    wp (decodeStored stored) C Q E s v := by
  rcases stored with _ | r
  · exact (wp_pure _).2 hQ
  · rw [decodeStored, SchedulerCancelPending.decode_document,
      SchedulerCancelPending.modelValidate, if_pos (hval r rfl), wp_bind,
      wp_ofExcept]
    refine ⟨fun record hrec => ?_, fun e he => by cases he⟩
    injection hrec with hrec
    subst hrec
    exact (wp_pure _).2 hQ

omit [Platform] in
/-- What a scan lists is a pending record. -/
theorem CancelReadable.listed (h : CancelReadable s) {cluster : String}
    (hent : entry ∈ s.collect (cancelPendingRecords cluster)) :
    entry.2.Valid ∧ entry.2.jobId = entry.1 := by
  obtain ⟨p, c, hread, hlist⟩ := Files.mem_collect.1 hent
  cases p with
  | schedulerCancelPending token jobId =>
    rw [cancelPendingRecords] at hlist
    split_ifs at hlist with htok
    injection hlist with hlist
    subst hlist htok
    obtain ⟨hval, _, hj⟩ := (h.jobs cluster jobId).work c hread
    exact ⟨hval, hj⟩
  | _ => cases hlist

theorem wp_readScannedRecord {Q : Post (List SchedulerCancelPending)}
    (hval : entry.2.Valid) (hname : entry.2.jobId = entry.1) (hQ : Q [entry.2] s v) :
    wp (readScannedRecord entry) C Q E s v := by
  rw [readScannedRecord, SchedulerCancelPending.decode_document,
    SchedulerCancelPending.modelValidate, if_pos hval, wp_bind, wp_ofExcept]
  refine ⟨fun record hrec => ?_, fun e he => by cases he⟩
  injection hrec with hrec
  subst hrec
  refine wp_require_then (fun _ => (wp_pure _).2 hQ) fun hne => ?_
  rw [hname, beq_self_eq_true] at hne
  cases hne

/-- A scanned record is kept or dropped. -/
theorem wp_dropCompleted_readable {record : SchedulerCancelPending} (h : CancelReadable s)
    (hdrop : CancelDropped s t) :
    wp (dropCompleted record) (fun _ => True) (fun _ u _ => CancelDropped s u)
      (fun _ _ _ => False) t v := by
  have hsame := hdrop.read_disposition record.cluster record.jobId
  have hdone := (h.jobs record.cluster record.jobId).done
  rw [dropCompleted, wp_bind, readSchedulerCancelDisposition, wp_bind, read_eq_look, wp_look]
  refine wp_decodeStored_valid (fun r hr => (hdone r (hsame.symm.trans hr)).1) ?_
  rcases hread : t.read (cancelDispositionFile record.cluster record.jobId) with _ | completed
  · exact (wp_pure _).2 hdrop
  · simp only
    refine wp_require_then (fun _ => ?_) fun hinc => ?_
    · rw [wp_bind, wp_unlink]
      exact ⟨trivial, (wp_pure _).2 (hdrop.unlink (by rw [hread]; rfl))⟩
    · rw [(hdone completed (hsame.symm.trans hread)).2] at hinc
      cases hinc

/-- **A scan of readable records succeeds.** -/
theorem CancelReadable.scan [Entropy] (h : CancelReadable s) (cluster : String) {limit : Int}
    (now : Option Time) (hleast : 1 ≤ limit) (hmost : limit ≤ 1000) (v : Supply) :
    ∃ due, ((scanDueSchedulerCancellations cluster limit now).run s v).result = .ok due := by
  have hwp : wp (scanDueSchedulerCancellations cluster limit now) (fun _ => True)
      (fun _ _ _ => True) (fun _ _ _ => False) s v := by
    obtain ⟨_, hst, hcomp⟩ := h.migrated
    unfold scanDueSchedulerCancellations
    refine wp_require_then (fun _ => ?_) fun href => ?_
    · rw [wp_bind, requireIndexMigrationComplete, wp_bind, readIndexMigrationState,
        wp_bind, read_eq_look, wp_look, hst]
      simp only [wp_pure]
      rw [wp_require]
      refine ⟨fun _ => ?_, fun hinc => ?_⟩
      · rw [wp_bind, wp_listing, wp_bind]
        -- the entries still to read are listed ones
        have hread : ∀ entries : List (DurableRecordId × SchedulerCancelPending),
            (∀ entry ∈ entries, entry ∈ s.collect (cancelPendingRecords cluster)) → ∀ w,
            wp (gather readScannedRecord entries) (fun _ => True)
              (fun _ t _ => t = s) (fun _ _ _ => False) s w := by
          intro entries hents w
          refine wp_imp (wp_gather (fun rest _ t _ => t = s ∧
              ∀ entry ∈ rest, entry ∈ s.collect (cancelPendingRecords cluster))
            readScannedRecord (fun entry rest _ t w ht => ?_) entries [] s w ⟨rfl, hents⟩)
            fun _ _ _ ht => ht.1
          obtain ⟨rfl, hrest⟩ := ht
          obtain ⟨hval, hname⟩ := h.listed (hrest entry (.head _))
          exact wp_readScannedRecord hval hname ⟨rfl, fun entry hent => hrest entry (.tail _ hent)⟩
        refine wp_imp (hread _ (fun entry hent => List.mem_of_mem_take hent) _)
          fun records t w ht => ?_
        subst ht
        refine wp_then (wp_gather (fun _ _ u _ => CancelDropped t u) dropCompleted
          (fun _ _ _ u w hu => wp_dropCompleted_readable h hu) records [] t w
          (CancelDropped.refl t)) fun _ _ _ _ => ?_
        rw [wp_bind]
        exact wp_observedNow fun _ _ => (wp_pure _).2 trivial
      · rw [hcomp] at hinc
        cases hinc
    · have hmost' : limit ≤ (defaultExactRecordLimit : Int) := hmost
      rw [decide_eq_true hleast, decide_eq_true hmost'] at href
      cases href
  have hres := hwp.2
  rcases hcase : ((scanDueSchedulerCancellations cluster limit now).run s v).result with e | due
  · rw [hcase] at hres
    exact hres.elim
  · exact ⟨due, rfl⟩

end Scans

/-- Every record on disk is read back as it was written, and scans succeed. -/
structure CancelRecordsReadBack (s : Store) : Prop where
  pending : ∀ cluster jobId r, s.read (cancelPendingFile cluster jobId) = some r →
    SchedulerCancelPending.decode r.document = .ok r
  completed : ∀ cluster jobId r, s.read (cancelDispositionFile cluster jobId) = some r →
    SchedulerCancelPending.decode r.document = .ok r
  scans : ∀ (_ : Entropy) (cluster : String) (limit : Int) (now : Option Time) (v : Supply),
    1 ≤ limit → limit ≤ 1000 →
      ∃ due, ((scanDueSchedulerCancellations cluster limit now).run s v).result = .ok due

theorem SchedulerCancelPending.Valid.reads_back {r : SchedulerCancelPending} (h : r.Valid) :
    SchedulerCancelPending.decode r.document = .ok r := by
  rw [SchedulerCancelPending.decode_document, SchedulerCancelPending.modelValidate, if_pos h]

/-- **Every cancellation record is read back**, and scans succeed, in every state of a run
whose calls stay within bounds. -/
theorem cancel_records_readable_of_run (hs₀ : NoCancellation s₀)
    (hmigrated : ∃ state, s₀.read .migrationState = some state ∧ state.complete = true)
    (hrun : Relation.ReflTransGen CancelCall.BoundedStep s₀ s) : CancelRecordsReadBack s := by
  have hstart : CancelReadable s₀ := by
    refine ⟨fun cluster jobId => ?_, hmigrated⟩
    rw [(hs₀ cluster jobId).1, (hs₀ cluster jobId).2]
    exact ⟨fun _ hr => (by cases hr), fun _ hr => (by cases hr)⟩
  have hreadable := hstart.steps hrun
  refine ⟨fun cluster jobId r hr => ?_, fun cluster jobId r hr => ?_,
    fun _ cluster limit now v hleast hmost => hreadable.scan cluster now hleast hmost v⟩
  · exact ((hreadable.jobs cluster jobId).work r hr).1.reads_back
  · exact ((hreadable.jobs cluster jobId).done r hr).1.reads_back

end

/-! ### The bound that registration does not check -/

/-- The scheduler identities of a job array. -/
def sampleSchedulerId (n : Nat) : String :=
  String.ofList ('j' :: (Nat.digits 10 n).map Nat.digitChar)

theorem sampleSchedulerId_injective {m : Nat} (h : sampleSchedulerId m = sampleSchedulerId n) :
    m = n := by
  have hchar : ∀ k, ∀ x ∈ Nat.digits 10 k, (Nat.digitChar x).toNat - 48 = x := by
    intro k x hx
    have hlt : x < 10 := Nat.digits_lt_base (by decide) hx
    have hall : ∀ x < 10, (Nat.digitChar x).toNat - 48 = x := by decide
    exact hall x hlt
  have hdigs : ∀ k, ((Nat.digits 10 k).map Nat.digitChar).map (fun c => c.toNat - 48) =
      Nat.digits 10 k := by
    intro k
    rw [List.map_map]
    exact (List.map_congr_left (hchar k)).trans (List.map_id _)
  have hlists := List.cons.inj (String.ofList_injective h)
  have hsame := congrArg (List.map fun c => c.toNat - 48) hlists.2
  rw [hdigs, hdigs] at hsame
  exact Nat.digits.injective 10 hsame

theorem sampleCandidate_valid (h : n ≤ 1000) (time : Time) :
    (registrationCandidate (sampleSchedulerId n) none true time).Valid := by
  have hlen : (sampleSchedulerId n).length ≤ 5 := by
    have hdigs : (Nat.digits 10 n).length ≤ 4 :=
      (Nat.digits_length_le_iff (by decide) n).2 (by omega)
    rw [sampleSchedulerId, String.length_ofList, List.length_cons, List.length_map]
    omega
  have hleast : 1 ≤ (sampleSchedulerId n).length := by
    rw [sampleSchedulerId, String.length_ofList, List.length_cons]
    omega
  refine ⟨?_, rfl, Nat.zero_le _, Nat.zero_le _, rfl, rfl, rfl⟩
  show lengthWithin 1 256 (sampleSchedulerId n) = true
  rw [lengthWithin, decide_eq_true hleast, decide_eq_true (by omega)]
  rfl

/-- A new identity of a valid pending record, on a platform where every record fits. -/
theorem wp_register_new [Platform] [Entropy] {s : Store} {v : Supply} {sid : String}
    (hread : s.read (cancelPendingFile r.cluster r.jobId) = some r) (hr : r.Valid)
    (hpend : r.identityResolution = .pending) (hnew : r.find sid = none)
    (hcand : ∀ time, (registrationCandidate sid none true time).Valid)
    (hfits : ∀ r, Platform.schedulerCancelFits r = true) :
    wp (registerSchedulerCancelIdentityOnce r.jobId r.cluster sid none true) (fun _ => True)
      (fun _ t _ => ∃ createdAt updatedAt, t = s.write (cancelPendingFile r.cluster r.jobId)
        { r with
          dispositions := r.dispositions ++ [registrationCandidate sid none true createdAt]
          updatedAt })
      (fun _ _ _ => False) s v := by
  unfold registerSchedulerCancelIdentityOnce
  rw [wp_bind, requireSchedulerCancelPending, wp_bind, readSchedulerCancelPending,
    wp_bind, read_eq_look, wp_look]
  refine wp_decodeStored_valid (fun r' hr' => ?_) ?_
  · have hsame := hread.symm.trans hr'
    injection hsame with hsame
    exact hsame ▸ hr
  rw [hread]
  simp only
  refine wp_require_then (fun _ => ?_) fun hname => ?_
  · rw [wp_pure, wp_bind, wp_utcNow, wp_bind,
      SchedulerCancelDisposition.modelValidate, if_pos (hcand _), wp_ofExcept]
    refine ⟨fun candidate hok => ?_, fun e he => by cases he⟩
    injection hok with hok
    subst hok
    rw [hnew]
    simp only [wp_bind, wp_utcNow]
    have hinc : SchedulerCancelPending.complete
        { r with
          dispositions := r.dispositions ++
            [registrationCandidate sid none true (Entropy.clock v.ticks)]
          updatedAt := Entropy.clock (v.ticks + 1) } = false := by
      simp [SchedulerCancelPending.complete, hpend]
    rw [persistSchedulerCancelRecord, hinc, if_neg (by decide)]
    refine wp_putWithin_then (fun _ => ⟨trivial, ?_⟩) fun hlarge => ?_
    · rw [wp_pure, wp_pure]
      exact ⟨_, _, rfl⟩
    · rw [hfits] at hlarge
      cases hlarge
  · rw [beq_self_eq_true, beq_self_eq_true] at hname
    cases hname

/-- The sample queue after a number of registrations, each run to its end. -/
def sampleRegistrations : Nat → Store
  | 0 => sampleCancelPending
  | n + 1 =>
    ((@CancelCall.prog samplePlatform sampleEntropy (.registerIdentityOnce sampleJob.jobId "ares"
      (sampleSchedulerId n) none true)).run (sampleRegistrations n) sampleSupply).store

/-- The pending record of the sample after a number of registrations. -/
structure SampleRecord (n : Nat) (r : SchedulerCancelPending) : Prop where
  cluster : r.cluster = "ares"
  jobId : r.jobId = sampleJob.jobId
  reason : lengthWithin 1 256 r.reason = true
  pending : r.identityResolution = .pending
  length : r.dispositions.length = n
  valid : ∀ d ∈ r.dispositions, d.Valid
  names : ∀ d ∈ r.dispositions, ∃ m < n, d.schedulerJobId = sampleSchedulerId m

theorem SampleRecord.record_valid (h : SampleRecord n r) (hn : n ≤ 1000) : r.Valid := by
  refine ⟨?_, h.reason, ?_, h.valid⟩
  · rw [h.cluster]
    decide
  · rw [h.length]
    exact hn

theorem SampleRecord.find_next (h : SampleRecord n r) : r.find (sampleSchedulerId n) = none := by
  refine List.find?_eq_none.2 fun d hd hname => ?_
  obtain ⟨m, _, hid⟩ := h.names d hd
  have hsame : sampleSchedulerId m = sampleSchedulerId n := by
    rw [← hid]
    simpa using hname
  have heq := sampleSchedulerId_injective hsame
  omega

/-- **One more registration** fits on the sample platform, up to the record after the last
valid one. -/
theorem SampleRecord.next (h : SampleRecord n r) (hn : n ≤ 1000) (createdAt updatedAt : Time) :
    SampleRecord (n + 1)
      { r with
        dispositions := r.dispositions ++
          [registrationCandidate (sampleSchedulerId n) none true createdAt]
        updatedAt } := by
  refine ⟨h.cluster, h.jobId, h.reason, h.pending, ?_, fun d hd => ?_, fun d hd => ?_⟩
  · show (r.dispositions ++ [_]).length = n + 1
    rw [List.length_append, h.length, List.length_singleton]
  · rcases List.mem_append.1 hd with hd | hd
    · exact h.valid d hd
    · rw [List.mem_singleton] at hd
      exact hd ▸ sampleCandidate_valid hn createdAt
  · rcases List.mem_append.1 hd with hd | hd
    · obtain ⟨m, _, hid⟩ := h.names d hd
      exact ⟨m, by omega, hid⟩
    · rw [List.mem_singleton] at hd
      exact ⟨n, by omega, hd ▸ rfl⟩

/-- The record of the sample before its first registration. -/
def sampleCancelRecord : SchedulerCancelPending where
  jobId := sampleJob.jobId
  cluster := "ares"
  requestedAt := 0
  reason := "operator_request"
  updatedAt := 1000000

theorem read_sampleCancelPending : sampleCancelPending.read
    (cancelPendingFile "ares" sampleJob.jobId) = some sampleCancelRecord := by decide +kernel

/-- The sample queue holds a record with as many identities as were registered. -/
theorem read_sampleRegistrations :
    ∀ n ≤ 1001, ∃ r, (sampleRegistrations n).read (cancelPendingFile "ares" sampleJob.jobId) =
      some r ∧ SampleRecord n r
  | 0, _ => by
      rw [sampleRegistrations]
      exact ⟨sampleCancelRecord, read_sampleCancelPending, rfl, rfl, by decide, rfl, rfl,
        fun d hd => absurd hd List.not_mem_nil, fun d hd => absurd hd List.not_mem_nil⟩
  | n + 1, hn => by
      let := samplePlatform
      let := sampleEntropy
      obtain ⟨r, hread, hr⟩ := read_sampleRegistrations n (by omega)
      have hread' : (sampleRegistrations n).read (cancelPendingFile r.cluster r.jobId) = some r := by
        rw [hr.cluster, hr.jobId]
        exact hread
      have hwp := wp_register_new (v := sampleSupply) hread' (hr.record_valid (by omega)) hr.pending
        hr.find_next (sampleCandidate_valid (by omega)) fun _ => rfl
      have hprog : wp (CancelCall.registerIdentityOnce r.jobId r.cluster
          (sampleSchedulerId n) none true).prog (fun _ => True)
          (fun _ t _ => ∃ r', t.read (cancelPendingFile r.cluster r.jobId) = some r' ∧
            SampleRecord (n + 1) r')
          (fun _ t _ => ∃ r', t.read (cancelPendingFile r.cluster r.jobId) = some r' ∧
            SampleRecord (n + 1) r') (sampleRegistrations n) sampleSupply := by
        rw [CancelCall.prog, wp_bind]
        refine wp_mono hwp (fun _ h => h) (fun _ t _ ht => ?_) fun _ _ _ h => h.elim
        obtain ⟨_, _, rfl⟩ := ht
        exact (wp_pure _).2 ⟨_, Files.read_write_self .., hr.next (by omega) _ _⟩
      have hstore := wp_store hprog
      rw [hr.cluster, hr.jobId] at hstore
      exact hstore

theorem run_sampleRegistrations (n : Nat) : Relation.ReflTransGen
    (@CancelCall.Step samplePlatform) sampleCancelQueue (sampleRegistrations n) := by
  induction n with
  | zero =>
    rw [sampleRegistrations]
    exact .single (CancelCall.step_stopped ..)
  | succ n ih =>
    refine .tail ih ⟨sampleEntropy, .registerIdentityOnce sampleJob.jobId "ares"
      (sampleSchedulerId n) none true, sampleSupply, ?_⟩
    rw [sampleRegistrations]
    exact List.mem_append_right _ (.head _)

/-- **A record that cannot be read back**: every one of 1001 registrations returns, and the
document that the last one writes is refused by every later read. -/
theorem cancel_record_not_read_back :
    NoCancellation sampleCancelQueue ∧
      (sampleCancelQueue.read .migrationState).any (fun state => state.complete) = true ∧
      Relation.ReflTransGen (@CancelCall.Step samplePlatform) sampleCancelQueue
        (sampleRegistrations 1001) ∧
      ¬ @CancelRecordsReadBack samplePlatform (sampleRegistrations 1001) := by
  let := samplePlatform
  refine ⟨noCancellation_sampleCancelQueue, by decide +kernel, run_sampleRegistrations 1001,
    fun h => ?_⟩
  obtain ⟨r, hread, hr⟩ := read_sampleRegistrations 1001 (Nat.le_refl _)
  have hdecode := h.pending "ares" sampleJob.jobId r hread
  rw [SchedulerCancelPending.decode_document, SchedulerCancelPending.modelValidate] at hdecode
  by_cases hval : r.Valid
  · have hlen := hval.length
    rw [hr.length] at hlen
    exact absurd hlen (by decide)
  · rw [if_neg hval] at hdecode
    cases hdecode

/-- The record of the sample is read back after its first registration. -/
theorem cancel_records_readable_of_run_sample :
    (sampleRegistrations 1).read (cancelPendingFile "ares" sampleJob.jobId) ≠ none ∧
      @CancelRecordsReadBack samplePlatform (sampleRegistrations 1) := by
  let := samplePlatform
  obtain ⟨r, hread, _⟩ := read_sampleRegistrations 1 (by decide)
  have hfirst : CancelCall.BoundedStep sampleCancelQueue sampleCancelPending :=
    ⟨sampleEntropy, .ensurePending sampleJob.jobId "operator_request", sampleSupply, trivial,
      CancelCall.stopped_mem_halts ..⟩
  have hbounds : (CancelCall.registerIdentityOnce sampleJob.jobId "ares" (sampleSchedulerId 0)
      none true).WithinBounds sampleCancelPending := by
    intro _ hr₀ _
    have hsame := read_sampleCancelPending.symm.trans hr₀
    injection hsame with hsame
    subst hsame
    decide
  have hsecond : CancelCall.BoundedStep sampleCancelPending (sampleRegistrations 1) := by
    refine ⟨sampleEntropy, _, sampleSupply, hbounds, ?_⟩
    rw [sampleRegistrations, sampleRegistrations]
    exact List.mem_append_right _ (.head _)
  refine ⟨by rw [hread]; exact nofun, ?_⟩
  exact cancel_records_readable_of_run noCancellation_sampleCancelQueue
    ⟨⟨true, true, true, true, none, 0, 0⟩, by decide +kernel, rfl⟩
    (.tail (.single hfirst) hsecond)

end ClioQueue
