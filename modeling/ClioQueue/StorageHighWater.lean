/-
# The high-water limits

`capture_admission_snapshot` and `_snapshot` of `clio_relay/storage_snapshot.py`, and the order of
the steps of `submit_job` in `clio_relay/storage_managed_queue_admission.py`.

A submission scans the core tree, then the spool tree, and reserves later, under the lock of the
ledger, with the snapshot it has taken.  In between other jobs may reserve, grow and be released.
A reservation that is granted keeps the trees and what the reservations still allow within the limits
whenever nothing is hidden from it: no owner without a reservation, a job that was released or the
ledger file itself, holds more than the scan has seen.
-/

import ClioQueue.StorageReservationRuns
import ClioQueue.StorageScan

namespace ClioQueue

variable {ledger : LedgerState} {passed : List StorageWorld} {policy : StoragePolicy}
  {w : StorageWorld}

open Durable Durable.Prog

/-! ### The state -/

/-- The ledger file and the two trees, apart from the ledger file. -/
structure StorageWorld where
  ledger : LedgerFile
  core : List StorageEntry
  spool : List StorageEntry

/-- The state directory with the ledger file. -/
def LedgerFile.entries : LedgerFile → List StorageEntry
  | .absent => []
  | .text bytes _ => [.directory [.file .ledger bytes]]

namespace StorageWorld

/-- The core tree. -/
def coreTree (policy : StoragePolicy) (w : StorageWorld) : List StorageEntry :=
  w.core ++ if policy.stateRoot = .inCore then w.ledger.entries else []

/-- The spool tree. -/
def spoolTree (policy : StoragePolicy) (w : StorageWorld) : List StorageEntry :=
  w.spool ++ if policy.stateRoot = .inSpool then w.ledger.entries else []

/-- The files of the core tree. -/
def coreHoldings (policy : StoragePolicy) (w : StorageWorld) : List (StorageOwner × Nat) :=
  StorageEntry.holdingsAll (w.coreTree policy)

/-- The files of the spool tree. -/
def spoolHoldings (policy : StoragePolicy) (w : StorageWorld) : List (StorageOwner × Nat) :=
  StorageEntry.holdingsAll (w.spoolTree policy)

end StorageWorld

/-- The reservations of core bytes. -/
def coreReservations (ledger : LedgerState) : List (StorageOwner × Nat) :=
  ledger.reservations.map fun record => (.job record.jobId, record.coreBytes)

/-- The reservations of spool bytes. -/
def spoolReservations (ledger : LedgerState) : List (StorageOwner × Nat) :=
  ledger.reservations.map fun record => (.job record.jobId, record.spoolBytes)

/-- `capture_admission_snapshot`, the core tree scanned in one state and the spool tree in a later
one. -/
def captureAdmissionSnapshot (policy : StoragePolicy) (coreWorld spoolWorld : StorageWorld) :
    Except StorageError StorageTreeSnapshot := do
  let core ← scanTree policy.limits .reject policy.coreRoot (coreWorld.coreTree policy)
  let spool ← scanTree policy.limits .count policy.spoolRoot (spoolWorld.spoolTree policy)
  pure { core, spool }

/-- The snapshot was captured on the way: of the states that were passed, the latest first, the spool
tree was scanned in one and the core tree in it or before. -/
structure Captured (policy : StoragePolicy) (passed : List StorageWorld)
    (coreWorld spoolWorld : StorageWorld) (snapshot : StorageTreeSnapshot) : Prop where
  order : ∃ later earlier, passed = later ++ spoolWorld :: earlier ∧
    coreWorld ∈ spoolWorld :: earlier
  scan : captureAdmissionSnapshot policy coreWorld spoolWorld = .ok snapshot

/-! ### Runs -/

/-- A job's part of a tree grows, within its reservation; the other parts stay. -/
structure Grown (jobId : DurableRecordId) (limit : Nat) (before after : List StorageEntry) :
    Prop where
  others : ∀ owner, owner ≠ .job jobId →
    heldBy (StorageEntry.holdingsAll after) owner = heldBy (StorageEntry.holdingsAll before) owner
  grows : heldBy (StorageEntry.holdingsAll before) (.job jobId) ≤
    heldBy (StorageEntry.holdingsAll after) (.job jobId)
  within : heldBy (StorageEntry.holdingsAll after) (.job jobId) ≤ limit

section

variable [StoragePlatform]

/-- The reserving call of a submission. -/
def reserveCall (policy : StoragePolicy) (host : StorageHost) (jobId : String)
    (coreBytes spoolBytes : Int) (snapshot : StorageTreeSnapshot) : LedgerOp StorageDecision :=
  reserve policy host jobId coreBytes spoolBytes (some snapshot)

/-- The state that the reserving call leaves when nothing stops it. -/
def StorageWorld.reserving (policy : StoragePolicy) (host : StorageHost) (jobId : String)
    (coreBytes spoolBytes : Int) (snapshot : StorageTreeSnapshot) (w : StorageWorld) :
    StorageWorld where
  ledger := ((reserveCall policy host jobId coreBytes spoolBytes snapshot).run w.ledger ()).store
  core := w.core
  spool := w.spool

/-- **One step**: a job with a reservation grows within it, a job is released, or a submission reserves
with a snapshot it has captured before.  A call is stopped after its write or run to its end. -/
inductive StorageStep (policy : StoragePolicy) (passed : List StorageWorld) (w : StorageWorld) :
    StorageWorld → Prop where
  | grow {ledger : LedgerState} {record : ReservationRecord} {core spool : List StorageEntry} :
      w.ledger.ledger policy.limits = .ok ledger → record ∈ ledger.reservations →
      Grown record.jobId record.coreBytes w.core core →
      Grown record.jobId record.spoolBytes w.spool spool →
      StorageStep policy passed w { w with core, spool }
  | release {file : LedgerFile} (host : StorageHost) (jobId : String) :
      file ∈ (release policy host jobId).halts w.ledger () →
      StorageStep policy passed w { w with ledger := file }
  | reserve {file : LedgerFile} {coreWorld spoolWorld : StorageWorld}
      {snapshot : StorageTreeSnapshot} (host : StorageHost) (jobId : String)
      (coreBytes spoolBytes : Int) : Captured policy passed coreWorld spoolWorld snapshot →
      file ∈ (reserveCall policy host jobId coreBytes spoolBytes snapshot).halts w.ledger () →
      StorageStep policy passed w { w with ledger := file }

/-- What the jobs hold is within their reservations. -/
def WithinReservations (policy : StoragePolicy) (w : StorageWorld) : Prop :=
  ∀ ledger, w.ledger.ledger policy.limits = .ok ledger → ∀ record ∈ ledger.reservations,
    heldBy (StorageEntry.holdingsAll w.core) (.job record.jobId) ≤ record.coreBytes ∧
      heldBy (StorageEntry.holdingsAll w.spool) (.job record.jobId) ≤ record.spoolBytes

/-- **A run** in which the jobs stay within their reservations, with the states that it has passed, the
latest first. -/
inductive StorageRun (policy : StoragePolicy) (w₀ : StorageWorld) :
    List StorageWorld → StorageWorld → Prop where
  | start : StorageRun policy w₀ [w₀] w₀
  | step {passed : List StorageWorld} {w t : StorageWorld} : StorageRun policy w₀ passed w →
      StorageStep policy passed w t → WithinReservations policy t →
      StorageRun policy w₀ (t :: passed) t

/-! ### Safety -/

/-- **Safety**: what is on the disk and what the reservations still allow is within the limits. -/
structure BelowHighWater (policy : StoragePolicy) (w : StorageWorld) (ledger : LedgerState) :
    Prop where
  core : held (w.coreHoldings policy) +
    outstanding (coreReservations ledger) (w.coreHoldings policy) ≤ policy.limits.coreHighWaterBytes
  spool : held (w.spoolHoldings policy) +
    outstanding (spoolReservations ledger) (w.spoolHoldings policy) ≤
      policy.limits.spoolHighWaterBytes
  total : held (w.coreHoldings policy) + held (w.spoolHoldings policy) +
    outstanding (coreReservations ledger) (w.coreHoldings policy) +
    outstanding (spoolReservations ledger) (w.spoolHoldings policy) ≤
      policy.limits.totalHighWaterBytes

/-- **Nothing is hidden** from a reservation that has led to the ledger: neither a job without a
reservation nor the ledger file holds more than when the tree was scanned. -/
structure NothingHidden (policy : StoragePolicy) (coreWorld spoolWorld w : StorageWorld)
    (ledger : LedgerState) : Prop where
  core : ∀ owner, owner ≠ .other → owner ∉ (coreReservations ledger).map Prod.fst →
    heldBy (w.coreHoldings policy) owner ≤ heldBy (coreWorld.coreHoldings policy) owner
  spool : ∀ owner, owner ≠ .other → owner ∉ (spoolReservations ledger).map Prod.fst →
    heldBy (w.spoolHoldings policy) owner ≤ heldBy (spoolWorld.spoolHoldings policy) owner

variable {policy : StoragePolicy}
  {ledger : LedgerState} {passed : List StorageWorld} {volumes : List VolumeStatus}
  {snapshot : StorageTreeSnapshot} {coreWorld spoolWorld w : StorageWorld}

omit [StoragePlatform] in
/-- A captured snapshot has the bytes that each tree held when it was scanned. -/
theorem captureAdmissionSnapshot_ok
    (h : captureAdmissionSnapshot policy coreWorld spoolWorld = .ok snapshot) :
    snapshot.core.bytes = held (coreWorld.coreHoldings policy) ∧
      snapshot.spool.bytes = held (spoolWorld.spoolHoldings policy) := by
  unfold captureAdmissionSnapshot at h
  rcases hcore : scanTree policy.limits .reject policy.coreRoot (coreWorld.coreTree policy)
    with error | core
  · rw [hcore] at h
    cases h
  · rw [hcore] at h
    rcases hspool : scanTree policy.limits .count policy.spoolRoot (spoolWorld.spoolTree policy)
      with error | spool
    · rw [hspool] at h
      cases h
    · rw [hspool] at h
      cases h
      exact ⟨scanTree_ok hcore, scanTree_ok hspool⟩

omit [StoragePlatform] in
/-- The check that `_snapshot` makes. -/
theorem snapshotReason_healthy {limits : StorageLimits} {tree : StorageTreeSnapshot}
    {reservations : List ReservationRecord}
    (h : snapshotReason limits tree reservations volumes = .healthy) :
    tree.core.bytes + reservedCoreBytes reservations ≤ limits.coreHighWaterBytes ∧
      tree.spool.bytes + reservedSpoolBytes reservations ≤ limits.spoolHighWaterBytes ∧
      tree.core.bytes + tree.spool.bytes + reservedCoreBytes reservations +
        reservedSpoolBytes reservations ≤ limits.totalHighWaterBytes := by
  unfold snapshotReason at h
  dsimp only at h
  split_ifs at h with hcore hspool htot
  exact ⟨not_lt.1 hcore, not_lt.1 hspool, not_lt.1 htot⟩

/-- **A reservation that is granted** is in the ledger, which passes the check with the snapshot. -/
theorem wp_reserveCall {host : StorageHost} {jobId : String} {coreBytes spoolBytes : Int}
    {f : LedgerFile} :
    wp (reserveCall policy host jobId coreBytes spoolBytes snapshot) (fun _ => True)
      (fun decision t _ => decision.allowed = true → decision.reason = .reserved →
        ∃ ledger volumes, t.ledger policy.limits = .ok ledger ∧
          snapshotReason policy.limits snapshot ledger.reservations volumes = .healthy)
      (fun _ _ _ => True) f () := by
  refine wp_mono (wp_reserve jobId coreBytes spoolBytes (some snapshot))
    (fun _ _ => trivial) (fun decision t _ h hallowed hreason => ?_) fun _ _ _ _ => trivial
  rcases h.2 with ⟨_, hgiven, hmeets⟩ | ⟨hdenied, -⟩
  · cases hgiven snapshot rfl
    exact hmeets.granted hallowed hreason
  · rw [hallowed] at hdenied
    cases hdenied

/-! ### What does not belong to a job -/

section

omit [StoragePlatform]

theorem heldBy_entries (f : LedgerFile) {owner : StorageOwner} (h : owner ≠ .ledger) :
    heldBy (StorageEntry.holdingsAll f.entries) owner = 0 := by
  rcases f with _ | ⟨_, _⟩
  · rfl
  · simp [LedgerFile.entries, StorageEntry.holdingsAll, StorageEntry.holdings, heldBy_cons, h.symm]
    rfl

theorem heldBy_coreHoldings (w : StorageWorld) (owner : StorageOwner) (h : owner ≠ .ledger) :
    heldBy (w.coreHoldings policy) owner = heldBy (StorageEntry.holdingsAll w.core) owner := by
  unfold StorageWorld.coreHoldings StorageWorld.coreTree
  rw [StorageEntry.holdingsAll_append, heldBy_append]
  split_ifs
  · rw [heldBy_entries _ h, Nat.add_zero]
  · rfl

theorem heldBy_spoolHoldings (w : StorageWorld) (owner : StorageOwner) (h : owner ≠ .ledger) :
    heldBy (w.spoolHoldings policy) owner = heldBy (StorageEntry.holdingsAll w.spool) owner := by
  unfold StorageWorld.spoolHoldings StorageWorld.spoolTree
  rw [StorageEntry.holdingsAll_append, heldBy_append]
  split_ifs
  · rw [heldBy_entries _ h, Nat.add_zero]
  · rfl

end

/-- The same files belong to no job. -/
def SameOther (u w : StorageWorld) : Prop :=
  heldBy (StorageEntry.holdingsAll u.core) .other =
      heldBy (StorageEntry.holdingsAll w.core) .other ∧
    heldBy (StorageEntry.holdingsAll u.spool) .other =
      heldBy (StorageEntry.holdingsAll w.spool) .other

theorem StorageStep.sameOther {t : StorageWorld} (h : StorageStep policy passed w t) :
    SameOther w t := by
  cases h with
  | grow _ _ hcore hspool => 
    exact ⟨(hcore.others .other nofun).symm, (hspool.others .other nofun).symm⟩
  | release | reserve => exact ⟨rfl, rfl⟩

/-- **Along a run** the files that belong to no job stay. -/
theorem StorageRun.sameOther {w₀ : StorageWorld} (h : StorageRun policy w₀ passed w) :
    ∀ u ∈ passed, SameOther u w := by
  induction h with
  | start =>
    intro u hu
    rw [List.mem_singleton.1 hu]
    exact ⟨rfl, rfl⟩
  | @step passed w t _ hstep _ ih =>
    intro u hu
    rcases List.mem_cons.1 hu with rfl | hu
    · exact ⟨rfl, rfl⟩
    · obtain ⟨hcore, hspool⟩ := ih u hu
      have hsame := hstep.sameOther
      exact ⟨hcore.trans hsame.1, hspool.trans hsame.2⟩

/-! ### The high-water limits -/

omit [StoragePlatform] in
theorem held_coreReservations (ledger : LedgerState) :
    held (coreReservations ledger) = reservedCoreBytes ledger.reservations := by
  simp [held, coreReservations, reservedCoreBytes, Function.comp_def]

omit [StoragePlatform] in
theorem held_spoolReservations (ledger : LedgerState) :
    held (spoolReservations ledger) = reservedSpoolBytes ledger.reservations := by
  simp [held, spoolReservations, reservedSpoolBytes, Function.comp_def]

theorem reservations_nodup (h : Canonical policy.limits ledger) (amount : ReservationRecord → Nat) :
    ((ledger.reservations.map fun record => (StorageOwner.job record.jobId, amount record)).map
      Prod.fst).Nodup := by
  have hinj : Function.Injective StorageOwner.job := fun _ _ hab => StorageOwner.job.inj hab
  have hmap := (jobId_nodup h.increasing).map hinj
  rw [List.map_map] at hmap ⊢
  exact hmap

/-- **A reservation that passes the check and from which nothing is hidden is safe.** -/
theorem belowHighWater_of_check (hledger : w.ledger.ledger policy.limits = .ok ledger)
    (hscan : captureAdmissionSnapshot policy coreWorld spoolWorld = .ok snapshot)
    (hcheck : snapshotReason policy.limits snapshot ledger.reservations volumes = .healthy)
    (hwithin : WithinReservations policy w) (hcore : SameOther coreWorld w)
    (hspool : SameOther spoolWorld w) (hhidden : NothingHidden policy coreWorld spoolWorld w ledger) :
    BelowHighWater policy w ledger := by
  have hcanon := LedgerFile.ledger_canonical hledger
  obtain ⟨hcoreBytes, hspoolBytes⟩ := captureAdmissionSnapshot_ok hscan
  obtain ⟨_, _, _⟩ := snapshotReason_healthy hcheck
  have hcoreSum : held (w.coreHoldings policy) +
      outstanding (coreReservations ledger) (w.coreHoldings policy) ≤
      snapshot.core.bytes + reservedCoreBytes ledger.reservations := by
    rw [hcoreBytes, ← held_coreReservations]
    refine held_add_outstanding_le_of_untaken (reservations_nodup hcanon _) ?_ ?_
    · intro entry hent
      obtain ⟨record, hrec, rfl⟩ := List.mem_map.1 hent
      show heldBy (w.coreHoldings policy) (.job record.jobId) ≤ record.coreBytes
      rw [heldBy_coreHoldings w (.job record.jobId) nofun]
      exact (hwithin ledger hledger record hrec).1
    · intro owner howner
      by_cases hother : owner = .other
      · rw [hother, heldBy_coreHoldings w .other nofun, heldBy_coreHoldings coreWorld .other nofun]
        exact hcore.1.ge
      · exact hhidden.core owner hother howner
  have hspoolSum : held (w.spoolHoldings policy) +
      outstanding (spoolReservations ledger) (w.spoolHoldings policy) ≤
      snapshot.spool.bytes + reservedSpoolBytes ledger.reservations := by
    rw [hspoolBytes, ← held_spoolReservations]
    refine held_add_outstanding_le_of_untaken (reservations_nodup hcanon _) ?_ ?_
    · intro entry hent
      obtain ⟨record, hrec, rfl⟩ := List.mem_map.1 hent
      show heldBy (w.spoolHoldings policy) (.job record.jobId) ≤ record.spoolBytes
      rw [heldBy_spoolHoldings w (.job record.jobId) nofun]
      exact (hwithin ledger hledger record hrec).2
    · intro owner howner
      by_cases hother : owner = .other
      · rw [hother, heldBy_spoolHoldings w .other nofun,
          heldBy_spoolHoldings spoolWorld .other nofun]
        exact hspool.2.ge
      · exact hhidden.spool owner hother howner
  exact ⟨by omega, by omega, by omega⟩

/-- **The high-water limits hold** whenever `reserve` returns that a job is reserved, in every run and
with a snapshot from any earlier states of it, if nothing was hidden from the reservation. -/
theorem reserve_below_high_water {w₀ w coreWorld spoolWorld : StorageWorld}
    {passed : List StorageWorld} {snapshot : StorageTreeSnapshot} {host : StorageHost}
    {jobId : String} {coreBytes spoolBytes : Int} {decision : StorageDecision}
    (hrun : StorageRun policy w₀ passed w)
    (hcaptured : Captured policy passed coreWorld spoolWorld snapshot)
    (hresult : ((reserveCall policy host jobId coreBytes spoolBytes snapshot).run w.ledger
      ()).result = .ok decision)
    (hallowed : decision.allowed = true) (hreserved : decision.reason = .reserved)
    (hwithin : WithinReservations policy
      (w.reserving policy host jobId coreBytes spoolBytes snapshot))
    (hhidden : ∀ ledger, (w.reserving policy host jobId coreBytes spoolBytes snapshot).ledger.ledger
        policy.limits = .ok ledger →
      NothingHidden policy coreWorld spoolWorld
        (w.reserving policy host jobId coreBytes spoolBytes snapshot) ledger) :
    ∃ ledger, (w.reserving policy host jobId coreBytes spoolBytes snapshot).ledger.ledger
        policy.limits = .ok ledger ∧
      BelowHighWater policy (w.reserving policy host jobId coreBytes spoolBytes snapshot)
        ledger := by
  obtain ⟨ledger, _, hledger, hcheck⟩ :=
    wp_result wp_reserveCall hresult hallowed hreserved
  obtain ⟨_, earlier, hpassed, hcore⟩ := hcaptured.order
  have hsame : ∀ u ∈ spoolWorld :: earlier, SameOther u w := by
    intro u hu
    refine hrun.sameOther u ?_
    rw [hpassed]
    exact List.mem_append_right _ hu
  exact ⟨ledger, hledger, belowHighWater_of_check hledger hcaptured.scan hcheck hwithin
    (hsame coreWorld hcore) (hsame spoolWorld List.mem_cons_self) (hhidden ledger hledger)⟩

end

/-! ### Sample runs -/

/-- A policy of the sample runs with a small core tree. -/
def sampleTightPolicy (coreHighWaterBytes : Nat) (stateRoot : StateRoot) : StoragePolicy :=
  { sampleStoragePolicy with
    stateRoot
    limits := { sampleStorageLimits with
      coreHighWaterBytes := min coreHighWaterBytes 2000
      core_le_total := Nat.min_le_right _ _ } }

/-- Nothing is there yet. -/
def sampleEmptyWorld : StorageWorld := ⟨.absent, [], []⟩

/-- The sample reservation is asked for a job, with the empty snapshot. -/
def sampleReserving (policy : StoragePolicy) (jobId : DurableRecordId) (w : StorageWorld) :
    StorageWorld :=
  @StorageWorld.reserving sampleStoragePlatform policy (sampleStorageHost .committed) jobId.value
    100 200 sampleTreeSnapshot w

/-- The first job has filled its reservation in the core tree. -/
def sampleGrowing (w : StorageWorld) : StorageWorld :=
  { w with core := [.file (.job sampleStorageJob) 100] }

/-- The first job is released. -/
def sampleReleasing (policy : StoragePolicy) (w : StorageWorld) : StorageWorld :=
  { w with ledger := ((@release sampleStoragePlatform policy (sampleStorageHost .committed)
      "job-1").run w.ledger ()).store }

/-- The first job reserves. -/
def sampleFirst (policy : StoragePolicy) : StorageWorld :=
  sampleReserving policy sampleStorageJob sampleEmptyWorld

/-- It grows and is released. -/
def sampleGone (policy : StoragePolicy) : StorageWorld :=
  sampleReleasing policy (sampleGrowing (sampleFirst policy))

/-- The result of the reservation of a sample job. -/
def sampleOutcome (policy : StoragePolicy) (jobId : DurableRecordId) (w : StorageWorld) :
    Option (Bool × StorageReason) :=
  ((@reserveCall sampleStoragePlatform policy (sampleStorageHost .committed) jobId.value 100 200
    sampleTreeSnapshot).run w.ledger ()).result.toOption.map fun decision =>
      (decision.allowed, decision.reason)

/-- The ledger that a state holds. -/
def sampleWorldLedger (policy : StoragePolicy) (w : StorageWorld) : Option LedgerState :=
  (@LedgerFile.ledger sampleStoragePlatform policy.limits w.ledger).toOption

theorem sampleWorldLedger_some (h : sampleWorldLedger policy w = some ledger) :
    @LedgerFile.ledger sampleStoragePlatform policy.limits w.ledger = .ok ledger := by
  unfold sampleWorldLedger at h
  rcases hread : @LedgerFile.ledger sampleStoragePlatform policy.limits w.ledger with _ | _
  · rw [hread] at h
    cases h
  · rw [hread] at h
    cases h
    rfl

/-- The jobs of a ledger are within their reservations. -/
def sampleWithin (w : StorageWorld) (ledger : LedgerState) : Bool :=
  ledger.reservations.all fun record =>
    heldBy (StorageEntry.holdingsAll w.core) (.job record.jobId) ≤ record.coreBytes &&
      heldBy (StorageEntry.holdingsAll w.spool) (.job record.jobId) ≤ record.spoolBytes

theorem withinReservations_of (h : sampleWorldLedger policy w = some ledger)
    (hwithin : sampleWithin w ledger = true) :
    @WithinReservations sampleStoragePlatform policy w := by
  intro _ hfound record hrec
  rw [sampleWorldLedger_some h] at hfound
  cases hfound
  have hboth := List.all_eq_true.1 hwithin record hrec
  rw [Bool.and_eq_true, decide_eq_true_eq, decide_eq_true_eq] at hboth
  exact hboth

/-- More is on the disk and reserved than the limit of the core tree. -/
theorem exceeded_of
    (h : policy.limits.coreHighWaterBytes < held (w.coreHoldings policy) + outstanding (coreReservations ledger) (w.coreHoldings policy)) :
    ¬ BelowHighWater policy w ledger := fun hsafe => absurd hsafe.core (not_le.2 h)

/-- The empty snapshot was captured at the start. -/
theorem sampleCaptured (h : ∃ later, passed = later ++ [sampleEmptyWorld])
    (hscan : (captureAdmissionSnapshot policy sampleEmptyWorld sampleEmptyWorld).toOption = some sampleTreeSnapshot) :
    Captured policy passed sampleEmptyWorld sampleEmptyWorld sampleTreeSnapshot := by
  obtain ⟨later, rfl⟩ := h
  refine ⟨⟨later, [], rfl, .head _⟩, ?_⟩
  rcases hread : captureAdmissionSnapshot policy sampleEmptyWorld sampleEmptyWorld
    with error | found
  · rw [hread] at hscan
    cases hscan
  · rw [hread] at hscan
    cases hscan
    rfl

theorem sampleReserving_step (jobId : DurableRecordId)
    (h : Captured policy passed sampleEmptyWorld sampleEmptyWorld sampleTreeSnapshot) :
    @StorageStep sampleStoragePlatform policy passed w (sampleReserving policy jobId w) :=
  @StorageStep.reserve sampleStoragePlatform policy passed w _ _ _ _ (sampleStorageHost .committed)
    jobId.value 100 200 h (List.mem_append_right _ List.mem_cons_self)

theorem sampleGrowing_step (h : sampleWorldLedger policy w = some ledger)
    (hrec : sampleReservation sampleStorageJob ∈ ledger.reservations) (hcore : w.core = [])
    (hspool : w.spool = []) :
    @StorageStep sampleStoragePlatform policy passed w (sampleGrowing w) := by
  refine @StorageStep.grow sampleStoragePlatform policy passed w ledger _ _ w.spool
    (sampleWorldLedger_some h) hrec ⟨fun owner howner => ?_, ?_, ?_⟩
    ⟨fun _ _ => rfl, le_refl _, ?_⟩
  · rw [hcore]
    show heldBy [(StorageOwner.job sampleStorageJob, 100)] owner = 0
    rw [heldBy_cons, if_neg fun hsame => howner hsame.symm]
    rfl
  · rw [hcore]
    decide
  · decide
  · rw [hspool]
    decide

theorem sampleReleasing_step :
    @StorageStep sampleStoragePlatform policy passed w (sampleReleasing policy w) :=
  @StorageStep.release sampleStoragePlatform policy passed w _ (sampleStorageHost .committed) "job-1"
    (List.mem_append_right _ List.mem_cons_self)

/-- The policy under which bytes are hidden by a release. -/
def sampleRacePolicy : StoragePolicy := sampleTightPolicy 150 .elsewhere

/-- The policy under which the ledger file is hidden. -/
def sampleLedgerPolicy : StoragePolicy := sampleTightPolicy 100 .inCore

theorem sampleRace_ledgers :
    sampleWorldLedger sampleRacePolicy (sampleFirst sampleRacePolicy) =
      some ⟨1, [sampleReservation sampleStorageJob]⟩ ∧
    sampleWorldLedger sampleRacePolicy (sampleGone sampleRacePolicy) = some ⟨2, []⟩ ∧
    sampleWorldLedger sampleRacePolicy
        (sampleReserving sampleRacePolicy sampleLaterJob (sampleGone sampleRacePolicy)) =
      some ⟨3, [sampleReservation sampleLaterJob]⟩ ∧
    sampleWorldLedger sampleLedgerPolicy (sampleFirst sampleLedgerPolicy) =
      some ⟨1, [sampleReservation sampleStorageJob]⟩ := by
  decide +kernel

/-- The states of the race, the latest first. -/
def sampleRacePassed : List StorageWorld :=
  [sampleGone sampleRacePolicy, sampleGrowing (sampleFirst sampleRacePolicy),
    sampleFirst sampleRacePolicy, sampleEmptyWorld]

theorem sampleRace_captured (h : ∃ later, passed = later ++ [sampleEmptyWorld]) :
    Captured sampleRacePolicy passed sampleEmptyWorld sampleEmptyWorld sampleTreeSnapshot :=
  sampleCaptured h (by decide +kernel)

theorem sampleWorldLedger_growing (w : StorageWorld) :
    sampleWorldLedger policy (sampleGrowing w) = sampleWorldLedger policy w := rfl

/-- The first job reserves and grows. -/
theorem sampleGrowing_run
    (hcaptured : Captured policy [sampleEmptyWorld] sampleEmptyWorld sampleEmptyWorld
      sampleTreeSnapshot)
    (hfirst : sampleWorldLedger policy (sampleFirst policy) =
      some ⟨1, [sampleReservation sampleStorageJob]⟩) :
    @StorageRun sampleStoragePlatform policy sampleEmptyWorld
      [sampleGrowing (sampleFirst policy), sampleFirst policy, sampleEmptyWorld]
      (sampleGrowing (sampleFirst policy)) := by
  let := sampleStoragePlatform
  have hgrown : sampleWorldLedger policy (sampleGrowing (sampleFirst policy)) =
      some ⟨1, [sampleReservation sampleStorageJob]⟩ := (sampleWorldLedger_growing _).trans hfirst
  refine .step (.step .start ?_ ?_) ?_ ?_
  · exact sampleReserving_step sampleStorageJob hcaptured
  · exact withinReservations_of hfirst (by simp [sampleWithin]; exact ⟨Nat.zero_le _, Nat.zero_le _⟩)
  · exact sampleGrowing_step hfirst List.mem_cons_self rfl rfl
  · exact withinReservations_of hgrown (by simp [sampleWithin]; exact ⟨le_refl 100, Nat.zero_le _⟩)

theorem sampleRace_run :
    @StorageRun sampleStoragePlatform sampleRacePolicy sampleEmptyWorld sampleRacePassed
      (sampleGone sampleRacePolicy) := by
  let := sampleStoragePlatform
  obtain ⟨hfirst, hgone, -, -⟩ := sampleRace_ledgers
  exact .step (sampleGrowing_run (sampleRace_captured ⟨[], rfl⟩) hfirst) sampleReleasing_step
    (withinReservations_of hgone (by decide +kernel))

/-- **The limits can be exceeded.**  A job reserves, a submission scans the empty tree, the job grows
and is released, and the submission reserves: what is on the disk and what is reserved exceed the
limit of the core tree.  And with the ledger in the core tree a reservation up to the limit exceeds
it by the ledger file. -/
theorem high_water_exceeded :
    (@StorageRun sampleStoragePlatform sampleRacePolicy sampleEmptyWorld sampleRacePassed
        (sampleGone sampleRacePolicy) ∧
      Captured sampleRacePolicy sampleRacePassed sampleEmptyWorld sampleEmptyWorld
        sampleTreeSnapshot ∧
      sampleOutcome sampleRacePolicy sampleLaterJob (sampleGone sampleRacePolicy) =
        some (true, .reserved) ∧
      ∃ ledger, sampleWorldLedger sampleRacePolicy
          (sampleReserving sampleRacePolicy sampleLaterJob (sampleGone sampleRacePolicy)) =
          some ledger ∧
        sampleWithin (sampleReserving sampleRacePolicy sampleLaterJob
          (sampleGone sampleRacePolicy)) ledger = true ∧
        ¬ BelowHighWater sampleRacePolicy
          (sampleReserving sampleRacePolicy sampleLaterJob (sampleGone sampleRacePolicy)) ledger) ∧
    sampleOutcome sampleLedgerPolicy sampleStorageJob sampleEmptyWorld = some (true, .reserved) ∧
      ∃ ledger, sampleWorldLedger sampleLedgerPolicy (sampleFirst sampleLedgerPolicy) =
          some ledger ∧
        sampleWithin (sampleFirst sampleLedgerPolicy) ledger = true ∧
        ¬ BelowHighWater sampleLedgerPolicy (sampleFirst sampleLedgerPolicy) ledger := by
  obtain ⟨-, -, hlast, hledger⟩ := sampleRace_ledgers
  refine ⟨⟨sampleRace_run, sampleRace_captured ⟨sampleRacePassed.dropLast, rfl⟩,
    by decide +kernel, _, hlast,
    by decide +kernel, exceeded_of (by decide +kernel)⟩, by decide +kernel, _, hledger,
    by decide +kernel, exceeded_of (by decide +kernel)⟩

theorem sampleOutcome_some {jobId : DurableRecordId}
    (h : sampleOutcome policy jobId w = some (true, .reserved)) :
    ∃ decision : StorageDecision, ((@reserveCall sampleStoragePlatform policy
        (sampleStorageHost .committed) jobId.value 100 200 sampleTreeSnapshot).run w.ledger
        ()).result = .ok decision ∧ decision.allowed = true ∧ decision.reason = .reserved := by
  unfold sampleOutcome at h
  obtain ⟨decision, hdec, hpair⟩ := Option.map_eq_some_iff.1 h
  rw [Prod.mk.injEq] at hpair
  refine ⟨decision, ?_, hpair⟩
  rcases hresult : ((@reserveCall sampleStoragePlatform policy (sampleStorageHost .committed)
    jobId.value 100 200 sampleTreeSnapshot).run w.ledger ()).result with error | found
  · rw [hresult] at hdec
    cases hdec
  · rw [hresult] at hdec
    cases hdec
    rfl

/-- The policy under which two jobs fit. -/
def sampleRoomyPolicy : StoragePolicy := sampleTightPolicy 250 .elsewhere

/-- A second job reserves beside the one that has grown. -/
def sampleBeside : StorageWorld :=
  sampleReserving sampleRoomyPolicy sampleLaterJob (sampleGrowing (sampleFirst sampleRoomyPolicy))

theorem sampleRoomy_ledgers :
    sampleWorldLedger sampleRoomyPolicy (sampleFirst sampleRoomyPolicy) =
      some ⟨1, [sampleReservation sampleStorageJob]⟩ ∧
    sampleWorldLedger sampleRoomyPolicy sampleBeside =
      some ⟨2, [sampleReservation sampleStorageJob, sampleReservation sampleLaterJob]⟩ := by
  decide +kernel

/-- A job reserves and grows, and a second job reserves with a scan of the tree as it was before. -/
theorem reserve_below_high_water_sample :
    ∃ ledger, @LedgerFile.ledger sampleStoragePlatform sampleRoomyPolicy.limits
        sampleBeside.ledger = .ok ledger ∧
      BelowHighWater sampleRoomyPolicy sampleBeside ledger := by
  let := sampleStoragePlatform
  have hcaptured : ∀ later, Captured sampleRoomyPolicy (later ++ [sampleEmptyWorld])
      sampleEmptyWorld sampleEmptyWorld sampleTreeSnapshot := fun later =>
    sampleCaptured ⟨later, rfl⟩ (by decide +kernel)
  obtain ⟨_, hresult, hallowed, hreserved⟩ := sampleOutcome_some
    (show sampleOutcome sampleRoomyPolicy sampleLaterJob
        (sampleGrowing (sampleFirst sampleRoomyPolicy)) = some (true, .reserved)
      by decide +kernel)
  refine reserve_below_high_water (sampleGrowing_run (hcaptured []) sampleRoomy_ledgers.1)
    (hcaptured [sampleGrowing (sampleFirst sampleRoomyPolicy), sampleFirst sampleRoomyPolicy])
    hresult hallowed hreserved
    (withinReservations_of sampleRoomy_ledgers.2 (by decide +kernel)) fun ledger hledger => ?_
  cases (sampleWorldLedger_some sampleRoomy_ledgers.2).symm.trans hledger
  -- What is on the disk is held by the first job, which has its reservation.
  refine ⟨fun owner _ howner => ?_, fun _ _ _ => Nat.zero_le _⟩
  have hother : StorageOwner.job sampleStorageJob ≠ owner := by
    rintro rfl
    exact howner List.mem_cons_self
  show heldBy [(StorageOwner.job sampleStorageJob, 100)] owner ≤ 0
  rw [heldBy_cons, if_neg hother]
  rfl

end ClioQueue
