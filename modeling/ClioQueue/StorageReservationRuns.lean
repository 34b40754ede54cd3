/-
# Runs of the storage reservation ledger

Every ledger that an operation writes supersedes the one it has read: it is canonical, its
generation is the next one, and the reservations that stay are as they were.  A ledger that
is written is read back as it was encoded, so along any run the generation counts the
changes.  A refused call leaves the file as it was, with two exceptions: a reconciliation under
pressure records the active set, and a call whose replacement of the file could not be confirmed
has replaced it.
-/

import ClioQueue.StorageReservations

namespace ClioQueue

open Durable Durable.Prog

section

variable [StoragePlatform] {limits : StorageLimits} {ledger next : LedgerState}

/-- **One ledger supersedes another**: it is in canonical form, of the next generation, different,
and keeps the records of the jobs that both have. -/
structure Supersedes (limits : StorageLimits) (ledger next : LedgerState) : Prop where
  canonical : Canonical limits next
  generation : next.generation = ledger.generation + 1
  changed : next.reservations ≠ ledger.reservations
  kept : ∀ before ∈ ledger.reservations, ∀ after ∈ next.reservations,
    before.jobId = after.jobId → before = after

/-! ### Records -/

omit [StoragePlatform] in
theorem find_some {jobId : DurableRecordId} {record : ReservationRecord}
    (h : ledger.find jobId = some record) :
    record ∈ ledger.reservations ∧ record.jobId = jobId := by
  unfold LedgerState.find at h
  have hid := List.find?_some h
  exact ⟨List.mem_of_find?_eq_some h, of_decide_eq_true hid⟩

omit [StoragePlatform] in
theorem find_none {jobId : DurableRecordId} (h : ledger.find jobId = none) :
    ∀ record ∈ ledger.reservations, record.jobId ≠ jobId := by
  intro record hrec hid
  unfold LedgerState.find at h
  have hfalse := List.find?_eq_none.1 h record hrec
  simp [hid] at hfalse

theorem Canonical.find_mem (h : Canonical limits ledger) {record : ReservationRecord}
    (hmem : record ∈ ledger.reservations) : ledger.find record.jobId = some record := by
  rcases hfind : ledger.find record.jobId with _ | _
  · exact absurd rfl (find_none hfind record hmem)
  · obtain ⟨hfound, hid⟩ := find_some hfind
    rw [h.increasing.eq_of_key hfound hmem (congrArg DurableRecordId.value hid)]

theorem Canonical.eq_of_jobId (h : Canonical limits ledger) {a b : ReservationRecord}
    (ha : a ∈ ledger.reservations) (hb : b ∈ ledger.reservations) (hid : a.jobId = b.jobId) :
    a = b :=
  h.increasing.eq_of_key ha hb (congrArg DurableRecordId.value hid)

/-! ### The three proposals -/

/-- **A record for a new job.** -/
theorem Canonical.adding (h : Canonical limits ledger) {record : ReservationRecord}
    (hnew : ledger.find record.jobId = none)
    (hcnt : ledger.reservations.length < limits.maxReservations)
    (hamounts : WithinJobLimit limits record.coreBytes record.spoolBytes)
    (hstamp : IsTimestamp record.createdAt) : Supersedes limits ledger (ledger.adding record) := by
  have hmem : ∀ other, other ∈ (ledger.adding record).reservations ↔
      other ∈ ledger.reservations ∨ other = record := by
    intro other
    show other ∈ sortByKey _ (ledger.reservations ++ [record]) ↔ _
    rw [mem_sortByKey, List.mem_append, List.mem_singleton]
  have hids : ((ledger.reservations ++ [record]).map ReservationRecord.jobId).Nodup := by
    rw [List.map_append, List.nodup_append]
    refine ⟨jobId_nodup h.increasing, List.nodup_singleton _, fun a ha b hb => ?_⟩
    obtain ⟨other, hother, rfl⟩ := List.mem_map.1 ha
    rw [List.map_singleton, List.mem_singleton] at hb
    subst hb
    exact find_none hnew other hother
  refine ⟨⟨increasing_sortByKey (order_nodup hids), ?_, fun other hother => ?_,
    fun other hother => ?_⟩, rfl, fun heq => ?_, fun before hbefore after hafter hid => ?_⟩
  · show (sortByKey _ (ledger.reservations ++ [record])).length ≤ _
    rw [length_sortByKey, List.length_append, List.length_singleton]
    omega
  · rcases (hmem other).1 hother with hother | rfl
    · exact h.amounts other hother
    · exact hamounts
  · rcases (hmem other).1 hother with hother | rfl
    · exact h.stamped other hother
    · exact hstamp
  · have hin : record ∈ ledger.reservations := heq ▸ (hmem record).2 (.inr rfl)
    exact find_none hnew record hin rfl
  · rcases (hmem after).1 hafter with hafter | rfl
    · exact h.eq_of_jobId hbefore hafter hid
    · exact absurd hid (find_none hnew before hbefore)

/-- **Records are removed.** -/
theorem Canonical.keeping (h : Canonical limits ledger) {keep : ReservationRecord → Bool}
    {removed : ReservationRecord} (hrem : removed ∈ ledger.reservations)
    (hkeep : keep removed = false) : Supersedes limits ledger (ledger.keeping keep) := by
  have hmem : ∀ other, other ∈ (ledger.keeping keep).reservations →
      other ∈ ledger.reservations ∧ keep other = true := fun other => List.mem_filter.1
  refine ⟨⟨h.increasing.filter keep, le_trans (List.length_filter_le _ _) h.count,
    fun other hother => h.amounts other (hmem other hother).1,
    fun other hother => h.stamped other (hmem other hother).1⟩, rfl, fun heq => ?_,
    fun before hbefore after hafter hid => h.eq_of_jobId hbefore (hmem after hafter).1 hid⟩
  have hin : removed ∈ (ledger.keeping keep).reservations := heq ▸ hrem
  rw [(hmem removed hin).2] at hkeep
  cases hkeep

/-! ### The active set -/

/-- The job and the amounts of a record. -/
def ReservationRecord.active (record : ReservationRecord) : ActiveReservation where
  jobId := record.jobId
  coreBytes := record.coreBytes
  spoolBytes := record.spoolBytes

/-- The ledger holds exactly the active jobs with their amounts. -/
def LedgerState.Records (ledger : LedgerState) (active : List ActiveReservation) : Prop :=
  ledger.reservations.map ReservationRecord.active = sortByKey ActiveReservation.order active

/-- Active jobs that can be recorded. -/
structure ActiveSet (limits : StorageLimits) (active : List ActiveReservation) : Prop where
  nodup : (active.map ActiveReservation.jobId).Nodup
  amounts : ∀ job ∈ active, WithinJobLimit limits job.coreBytes job.spoolBytes

section

omit [StoragePlatform]

theorem mem_assignReservation {normalized : List ActiveReservation} {active job : ActiveReservation}
    (h : job ∈ assignReservation normalized active) : job = active ∨ job ∈ normalized := by
  induction normalized with
  | nil => exact .inl (List.mem_singleton.1 h)
  | cons first rest ih =>
    unfold assignReservation at h
    split_ifs at h
    · rcases List.mem_cons.1 h with rfl | h
      · exact .inl rfl
      · exact .inr (List.mem_cons_of_mem _ h)
    · rcases List.mem_cons.1 h with rfl | h
      · exact .inr List.mem_cons_self
      · rcases ih h with rfl | h
        · exact .inl rfl
        · exact .inr (List.mem_cons_of_mem _ h)

theorem length_assignReservation (normalized : List ActiveReservation)
    (active : ActiveReservation) :
    (assignReservation normalized active).length ≤ normalized.length + 1 := by
  induction normalized with
  | nil => exact le_refl _
  | cons =>
    unfold assignReservation
    split_ifs
    · exact Nat.le_succ _
    · rw [List.length_cons, List.length_cons]
      omega

/-- An assignment keeps the job ids distinct. -/
theorem ActiveSet.assign {normalized : List ActiveReservation} {active : ActiveReservation}
    (h : ActiveSet limits normalized)
    (hamounts : WithinJobLimit limits active.coreBytes active.spoolBytes) :
    ActiveSet limits (assignReservation normalized active) := by
  refine ⟨?_, fun job hjob => ?_⟩
  · have hnd := h.nodup
    clear h
    induction normalized with
    | nil => exact List.nodup_singleton _
    | cons first rest ih =>
      rw [List.map_cons, List.nodup_cons] at hnd
      unfold assignReservation
      split_ifs with hsame
      · rw [List.map_cons, List.nodup_cons, ← hsame]
        exact hnd
      · rw [List.map_cons, List.nodup_cons]
        refine ⟨fun hin => ?_, ih hnd.2⟩
        obtain ⟨job, hjob, hid⟩ := List.mem_map.1 hin
        rcases mem_assignReservation hjob with rfl | hjob
        · exact hsame hid.symm
        · exact hnd.1 (hid ▸ List.mem_map_of_mem hjob)
  · rcases mem_assignReservation hjob with rfl | hjob
    · exact hamounts
    · exact h.amounts job hjob

/-- **The normalised argument** has distinct jobs and valid amounts. -/
theorem normalizeReservations_ok {requested : List (String × Option (Int × Int))}
    {normalized active : List ActiveReservation} (h : ActiveSet limits normalized)
    (hok : normalizeReservations limits normalized requested = .ok active) :
    ActiveSet limits active ∧ active.length ≤ normalized.length + requested.length := by
  induction requested generalizing normalized with
  | nil =>
    cases hok
    exact ⟨h, Nat.le_add_right _ _⟩
  | cons entry rest ih =>
    obtain ⟨jobId, amounts⟩ := entry
    unfold normalizeReservations at hok
    rcases hid : validateJobId jobId with error | id
    · rw [hid] at hok
      cases hok
    · rw [hid] at hok
      rcases amounts with _ | amounts
      · cases hok
      · obtain ⟨coreBytes, spoolBytes⟩ := amounts
        rcases hval : validateReservationBytes limits coreBytes spoolBytes with error | valid
        · change (validateReservationBytes limits coreBytes spoolBytes >>= fun valid => _) =
            _ at hok
          rw [hval] at hok
          cases hok
        · change (validateReservationBytes limits coreBytes spoolBytes >>= fun valid => _) =
            _ at hok
          rw [hval] at hok
          obtain ⟨hactive, _⟩ :=
            ih (h.assign (validateReservationBytes_ok hval).1) hok
          have hassign := length_assignReservation normalized
            { jobId := id, coreBytes := valid.1, spoolBytes := valid.2 }
          refine ⟨hactive, ?_⟩
          rw [List.length_cons]
          omega

end

/-- No active job conflicts with its record. -/
def Unconflicted (ledger : LedgerState) (active : List ActiveReservation) : Prop :=
  active.filterMap (reservationConflict ledger) = []

section

omit [StoragePlatform]

theorem Unconflicted.active_adopted {active : List ActiveReservation} (h : Unconflicted ledger active)
    {now : String} {job : ActiveReservation} (hjob : job ∈ active) :
    (adoptedRecord ledger now job).active = job := by
  have hnone : reservationConflict ledger job = none := by
    have hforall := List.filterMap_eq_nil_iff.1 h
    exact hforall job hjob
  unfold reservationConflict at hnone
  unfold adoptedRecord
  rcases hfind : ledger.find job.jobId with _ | _
  · rfl
  · simp only [hfind] at hnone
    split_ifs at hnone with hdiffer
    rw [not_or, not_not, not_not] at hdiffer
    rw [Option.getD_some, ReservationRecord.active, (find_some hfind).2, hdiffer.1, hdiffer.2]

/-- The proposal records the active set. -/
theorem Unconflicted.records {active : List ActiveReservation}
    (h : Unconflicted ledger (sortByKey ActiveReservation.order active)) (generation : Nat)
    (now : String) :
    LedgerState.Records
      { generation,
        reservations := (sortByKey ActiveReservation.order active).map (adoptedRecord ledger now) }
      active := by
  unfold LedgerState.Records
  rw [List.map_map]
  exact List.map_congr_left (g := id) (fun job hjob => h.active_adopted hjob) |>.trans
    (List.map_id _)

/-- The adopted records stand in the order of their jobs, since adoption changes no job id. -/
theorem Unconflicted.increasing {active : List ActiveReservation}
    (h : Unconflicted ledger (sortByKey ActiveReservation.order active))
    (hactive : ActiveSet limits active) (now : String) :
    Increasing ReservationRecord.order
      ((sortByKey ActiveReservation.order active).map (adoptedRecord ledger now)) := by
  have hincreasing : Increasing ActiveReservation.order
      (sortByKey ActiveReservation.order active) := by
    refine increasing_sortByKey ?_
    have hinj : Function.Injective DurableRecordId.value := by
      rintro ⟨a, ha⟩ ⟨b, hb⟩ rfl
      rfl
    have hmap := hactive.nodup.map hinj
    rwa [List.map_map] at hmap
  have hkey : ∀ job ∈ sortByKey ActiveReservation.order active,
      (adoptedRecord ledger now job).order = job.order := by
    intro job hjob
    exact congrArg ActiveReservation.order (h.active_adopted hjob)
  refine List.pairwise_map.2 (hincreasing.imp_of_mem fun {a b} ha hb hlt => ?_)
  rw [hkey a ha, hkey b hb]
  exact hlt

end

/-- Adopting active reservations without a conflict keeps the ledger canonical: sorted, without
repetition and within its bounds. -/
theorem Unconflicted.canonical {active : List ActiveReservation} {generation : Nat} {now : String}
    (h : Unconflicted ledger (sortByKey ActiveReservation.order active)) (hledger : Canonical limits ledger)
    (hactive : ActiveSet limits active) (hcnt : active.length ≤ limits.maxReservations)
    (hnow : IsTimestamp now) :
    Canonical limits
      { generation,
        reservations :=
          (sortByKey ActiveReservation.order active).map (adoptedRecord ledger now) } := by
  refine ⟨h.increasing hactive now, ?_, fun record hrec => ?_, fun record hrec => ?_⟩
  · show (List.map _ _).length ≤ _
    rw [List.length_map, length_sortByKey]
    exact hcnt
  · obtain ⟨job, hjob, rfl⟩ := List.mem_map.1 hrec
    have hsame : (adoptedRecord ledger now job).active = job := h.active_adopted hjob
    have hcore := congrArg ActiveReservation.coreBytes hsame
    have hspool := congrArg ActiveReservation.spoolBytes hsame
    have hjob' := hactive.amounts job (mem_sortByKey.1 hjob)
    rw [← hcore, ← hspool] at hjob'
    exact hjob'
  · obtain ⟨job, hjob, rfl⟩ := List.mem_map.1 hrec
    unfold adoptedRecord
    rcases hfind : ledger.find job.jobId with _ | existing
    · exact hnow
    · exact hledger.stamped existing (find_some hfind).1

/-- **A reconciliation with changes**: the proposal supersedes the ledger. -/
theorem Unconflicted.supersedes {active : List ActiveReservation} {now : String}
    (h : Unconflicted ledger (sortByKey ActiveReservation.order active)) (hledger : Canonical limits ledger)
    (hactive : ActiveSet limits active) (hcnt : active.length ≤ limits.maxReservations)
    (hnow : IsTimestamp now)
    (hchg : (∃ job ∈ active, ledger.find job.jobId = none) ∨
      ∃ record ∈ ledger.reservations, record.jobId ∉ active.map ActiveReservation.jobId) :
    Supersedes limits ledger
      { generation := ledger.generation + 1,
        reservations :=
          (sortByKey ActiveReservation.order active).map (adoptedRecord ledger now) } := by
  have hids : ∀ job ∈ sortByKey ActiveReservation.order active,
      (adoptedRecord ledger now job).jobId = job.jobId := fun job hjob =>
    congrArg ActiveReservation.jobId (h.active_adopted hjob)
  refine ⟨h.canonical hledger hactive hcnt hnow, rfl, fun heq => ?_,
    fun before hbefore after hafter hid => ?_⟩
  · rcases hchg with ⟨job, hjob, hnone⟩ | ⟨record, hrec, hgone⟩
    · have hsort : job ∈ sortByKey ActiveReservation.order active := mem_sortByKey.2 hjob
      have hin : adoptedRecord ledger now job ∈ ledger.reservations := by
        rw [← heq]
        exact List.mem_map_of_mem hsort
      exact find_none hnone _ hin (hids job hsort)
    · rw [← heq] at hrec
      obtain ⟨job, hjob, rfl⟩ := List.mem_map.1 hrec
      rw [hids job hjob] at hgone
      exact hgone (List.mem_map_of_mem (mem_sortByKey.1 hjob))
  · obtain ⟨job, hjob, rfl⟩ := List.mem_map.1 hafter
    rw [hids job hjob] at hid
    have hfind := hledger.find_mem hbefore
    rw [hid] at hfind
    rw [adoptedRecord, hfind, Option.getD_some]

/-- **A reconciliation without changes**: the ledger already records the active set. -/
theorem Unconflicted.records_self {active : List ActiveReservation}
    (h : Unconflicted ledger (sortByKey ActiveReservation.order active)) (hledger : Canonical limits ledger)
    (hactive : ActiveSet limits active)
    (hall : ∀ job ∈ active, ledger.find job.jobId ≠ none)
    (hnone : ∀ record ∈ ledger.reservations, record.jobId ∈ active.map ActiveReservation.jobId) :
    ledger.Records active := by
  have hsame : (sortByKey ActiveReservation.order active).map (adoptedRecord ledger "") =
      ledger.reservations := by
    refine (h.increasing hactive "").eq_of_mem_iff hledger.increasing fun record => ⟨?_, ?_⟩
    · intro hin
      obtain ⟨job, hjob, rfl⟩ := List.mem_map.1 hin
      obtain ⟨_, hexist⟩ :=
        Option.ne_none_iff_exists'.1 (hall job (mem_sortByKey.1 hjob))
      rw [adoptedRecord, hexist, Option.getD_some]
      exact (find_some hexist).1
    · intro hin
      obtain ⟨job, hjob, hid⟩ := List.mem_map.1 (hnone record hin)
      refine List.mem_map.2 ⟨job, mem_sortByKey.2 hjob, ?_⟩
      rw [adoptedRecord, hid, hledger.find_mem hin, Option.getD_some]
  have hrecs := h.records ledger.generation ""
  rw [hsame] at hrecs
  exact hrecs

section

omit [StoragePlatform]

theorem mem_adoptedJobIds {active : List ActiveReservation} {jobId : DurableRecordId} :
    jobId ∈ adoptedJobIds ledger (sortByKey ActiveReservation.order active) ↔
      ∃ job ∈ active, ledger.find job.jobId = none ∧ job.jobId = jobId := by
  simp only [adoptedJobIds, List.mem_map, List.mem_filter, mem_sortByKey, Option.isNone_iff_eq_none,
    and_assoc]

theorem mem_releasedJobIds {active : List ActiveReservation} {jobId : DurableRecordId} :
    jobId ∈ releasedJobIds ledger (sortByKey ActiveReservation.order active) ↔
      ∃ record ∈ ledger.reservations, record.jobId ∉ active.map ActiveReservation.jobId ∧
        record.jobId = jobId := by
  have hperm := (sortByKey_perm ActiveReservation.order active).map ActiveReservation.jobId
  simp only [releasedJobIds, mem_sortByKey, List.mem_filter, decide_eq_true_eq, hperm.mem_iff]
  constructor
  · rintro ⟨hin, hout⟩
    obtain ⟨record, hrec, rfl⟩ := List.mem_map.1 hin
    exact ⟨record, hrec, hout, rfl⟩
  · rintro ⟨record, hrec, hout, rfl⟩
    exact ⟨List.mem_map_of_mem hrec, hout⟩

/-- A reconciliation changes the ledger if an active job is not on it or a job on it is not
active. -/
theorem changes_true {active : List ActiveReservation}
    (h : reconciliationChanges ledger (sortByKey ActiveReservation.order active) = true) :
    (∃ job ∈ active, ledger.find job.jobId = none) ∨
      ∃ record ∈ ledger.reservations, record.jobId ∉ active.map ActiveReservation.jobId := by
  unfold reconciliationChanges at h
  rw [Bool.not_eq_true', Bool.and_eq_false_iff] at h
  rcases h with h | h
  · obtain ⟨jobId, hin⟩ := List.exists_mem_of_ne_nil _ (by simpa using h)
    obtain ⟨job, hjob, hnone, -⟩ := mem_adoptedJobIds.1 hin
    exact .inl ⟨job, hjob, hnone⟩
  · obtain ⟨jobId, hin⟩ := List.exists_mem_of_ne_nil _ (by simpa using h)
    obtain ⟨record, hrec, hout, -⟩ := mem_releasedJobIds.1 hin
    exact .inr ⟨record, hrec, hout⟩

theorem changes_false {active : List ActiveReservation}
    (h : reconciliationChanges ledger (sortByKey ActiveReservation.order active) = false) :
    (∀ job ∈ active, ledger.find job.jobId ≠ none) ∧
      ∀ record ∈ ledger.reservations, record.jobId ∈ active.map ActiveReservation.jobId := by
  unfold reconciliationChanges at h
  rw [Bool.not_eq_false', Bool.and_eq_true, List.isEmpty_iff, List.isEmpty_iff] at h
  refine ⟨fun job hjob hnone => ?_, fun record hrec => ?_⟩
  · have hin := mem_adoptedJobIds.2 ⟨job, hjob, hnone, rfl⟩
    rw [h.1] at hin
    cases hin
  · by_contra hout
    have hin := mem_releasedJobIds.2 ⟨record, hrec, hout, rfl⟩
    rw [h.2] at hin
    cases hin

end

/-! ### Calls -/

/-- The calls on the ledger. -/
inductive LedgerCall where
  | reserve (jobId : String) (coreBytes spoolBytes : Int)
      (treeSnapshot : Option StorageTreeSnapshot)
  | release (jobId : String)
  | verifyReservation (jobId : String) (coreBytes spoolBytes : Int)
  | reconcile (activeJobIds : List String)
  | reconcileReservations (activeReservations : List (String × Option (Int × Int)))

/-- The program of a call. -/
def LedgerCall.prog (policy : StoragePolicy) (host : StorageHost) :
    LedgerCall → LedgerOp StorageDecision
  | .reserve jobId coreBytes spoolBytes treeSnapshot =>
    ClioQueue.reserve policy host jobId coreBytes spoolBytes treeSnapshot
  | .release jobId => ClioQueue.release policy host jobId
  | .verifyReservation jobId coreBytes spoolBytes =>
    ClioQueue.verifyReservation policy host jobId coreBytes spoolBytes
  | .reconcile activeJobIds => ClioQueue.reconcile policy host activeJobIds
  | .reconcileReservations activeReservations =>
    ClioQueue.reconcileReservations policy host activeReservations

/-- The file stays, or it is replaced by a ledger that supersedes the one in it and is read back. -/
def LedgerStep (limits : StorageLimits) (f t : LedgerFile) : Prop :=
  t = f ∨ ∃ ledger next, f.ledger limits = .ok ledger ∧ t = writtenFile next ∧
    t.ledger limits = .ok next ∧ Supersedes limits ledger next

/-- What a refused call leaves: a reconciliation under pressure has recorded the active set. -/
def LedgerCall.Refused (limits : StorageLimits) (f : LedgerFile) (decision : StorageDecision)
    (t : LedgerFile) : LedgerCall → Prop
  | .reconcileReservations requested =>
    match decision.status with
    | none => t = f
    | some status => status.healthy = false ∧ ∃ active ledger,
        normalizeReservations limits [] requested = .ok active ∧ t.ledger limits = .ok ledger ∧
          ledger.Records active
  | _ => t = f

variable {policy : StoragePolicy} {host : StorageHost} {f : LedgerFile}
  {t : LedgerFile} {amounts : Nat × Nat} {decision : StorageDecision}
  {R : StorageDecision → LedgerFile → Prop} {tree : StorageTreeSnapshot}

theorem LedgerFile.ledger_canonical (h : f.ledger limits = .ok ledger) :
    Canonical limits ledger := by
  rcases f with _ | ⟨_, document⟩
  · cases h
    exact ⟨List.Pairwise.nil, Nat.zero_le _, nofun, nofun⟩
  · simp only [LedgerFile.ledger] at h
    split_ifs at h
    rcases document with _ | _
    · cases h
    · exact decodeLedger_ok h

theorem writtenFile_ledger (h : Canonical limits ledger)
    (hfits : StoragePlatform.documentBytes (encodeLedger ledger) ≤ limits.maxLedgerBytes) :
    (writtenFile ledger).ledger limits = .ok ledger := by
  have hpos := StoragePlatform.documentBytes_pos (encodeLedger ledger)
  simp only [writtenFile, LedgerFile.ledger]
  rw [if_neg (by omega), if_neg (by omega)]
  exact decodeLedger_encodeLedger h

/-- The body of a call: what it returns or raises, and the file then. -/
def BodyMeets (policy : StoragePolicy) (host : StorageHost) (f : LedgerFile)
    (R : StorageDecision → LedgerFile → Prop) (m : LedgerOp StorageDecision) : Prop :=
  Prog.wp m (LedgerStep policy.limits f)
    (fun decision t _ => LedgerStep policy.limits f t ∧ R decision t)
    (fun error t _ => LedgerStep policy.limits f t ∧
      (t = f ∨ host.persistence = .unconfirmed error)) f ()

/-- A stage that leaves the file as it is. -/
theorem bodyMeets_ofExcept {α : Type} {x : Except StorageError α} {k : α → LedgerOp StorageDecision}
    (h : ∀ a, x = .ok a → BodyMeets policy host f R (k a)) :
    BodyMeets policy host f R (ofExcept x >>= k) := by
  unfold BodyMeets
  exact wp_ofExcept_then (fun a ha => h a ha) fun _ _ => ⟨.inl rfl, .inl rfl⟩

theorem bodyMeets_require {b : Bool} {error : StorageError} {k : Unit → LedgerOp StorageDecision}
    (h : b = true → BodyMeets policy host f R (k ())) :
    BodyMeets policy host f R (require b error >>= k) := by
  unfold BodyMeets
  rw [wp_bind, wp_require]
  exact ⟨h, fun _ => ⟨.inl rfl, .inl rfl⟩⟩

theorem bodyMeets_pure (h : R decision f) : BodyMeets policy host f R (pure decision) :=
  (wp_pure _).2 ⟨.inl rfl, h⟩

theorem bodyMeets_readLedger {k : LedgerState → LedgerOp StorageDecision}
    (h : ∀ ledger, f.ledger policy.limits = .ok ledger → Canonical policy.limits ledger → BodyMeets policy host f R (k ledger)) :
    BodyMeets policy host f R (readLedger policy.limits host >>= k) := by
  have hlook : BodyMeets policy host f R
      ((look (LedgerFile.ledger policy.limits) >>= ofExcept) >>= k) := by
    unfold BodyMeets
    rw [bind_assoc, wp_bind, wp_look]
    exact bodyMeets_ofExcept fun ledger hledger =>
      h ledger hledger (LedgerFile.ledger_canonical hledger)
  unfold readLedger
  rw [bind_assoc]
  exact bodyMeets_ofExcept fun _ _ => hlook

/-- **A write of a ledger that supersedes the one in the file.** -/
theorem bodyMeets_writeLedger (hledger : f.ledger policy.limits = .ok ledger)
    (h : Supersedes policy.limits ledger next)
    (hR : (writtenFile next).ledger policy.limits = .ok next → R decision (writtenFile next)) :
    BodyMeets policy host f R (writeLedger policy.limits host next >>= fun _ => pure decision) := by
  unfold BodyMeets writeLedger
  rw [wp_bind]
  split_ifs with hfits
  · exact (wp_raise _).2 ⟨.inl rfl, .inl rfl⟩
  · have hread := writtenFile_ledger h.canonical (not_lt.1 hfits)
    have hstep : LedgerStep policy.limits f (writtenFile next) :=
      .inr ⟨ledger, next, hledger, rfl, hread, h⟩
    cases hpersistence : host.persistence with
    | refused => exact (wp_raise _).2 ⟨.inl rfl, .inl rfl⟩
    | committed =>
      exact (wp_durably _).2 ⟨hstep, (wp_pure _).2 ⟨hstep, hR hread⟩⟩
    | unconfirmed =>
      rw [wp_bind]
      exact (wp_durably _).2 ⟨hstep, (wp_raise _).2 ⟨hstep, .inr rfl⟩⟩

/-- **An error becomes a decision.**  What the body guarantees, with the decisions of its errors. -/
theorem wp_handled {m : LedgerOp StorageDecision} (h : BodyMeets policy host f R m)
    (hR : ∀ decision : StorageDecision, decision.allowed = false → decision.status = none → R decision f) :
    wp (Prog.handle errorDecision m) (LedgerStep policy.limits f)
      (fun decision t _ => LedgerStep policy.limits f t ∧ (R decision t ∨
        decision.allowed = false ∧ ∃ error, host.persistence = .unconfirmed error ∧
          errorDecision error = .ok decision))
      (fun _ t _ => LedgerStep policy.limits f t) f () := by
  rw [wp_handle]
  refine wp_mono h (fun _ ht => ht) (fun decision t _ ht => ⟨ht.1, .inl ht.2⟩)
    fun error t _ ht => ?_
  rcases error with ⟨_, message, _⟩ | message
  · refine ⟨ht.1, ?_⟩
    rcases ht.2 with rfl | hunconf
    · exact .inl (hR _ rfl rfl)
    · exact .inr ⟨rfl, _, hunconf, rfl⟩
  · exact ht.1

/-! ### Each operation -/

omit [StoragePlatform] in
/-- A snapshot that is not unhealthy passes the check of the tree with the reservations. -/
theorem takeSnapshot_healthy {reservations : List ReservationRecord} {generation : Nat}
    {status : StorageStatus}
    (h : takeSnapshot policy host reservations generation (some tree) = .ok status)
    (hhealthy : status.healthy ≠ false) :
    ∃ volumes, snapshotReason policy.limits tree reservations volumes = .healthy := by
  unfold takeSnapshot at h
  dsimp only at h
  split_ifs at h
  · cases h
  · change (volumeStatus policy host (reservedCoreBytes reservations)
      (reservedSpoolBytes reservations) >>= fun volumes => _) = _ at h
    rcases hvolumes : volumeStatus policy host (reservedCoreBytes reservations)
      (reservedSpoolBytes reservations) with error | volumes
    · rw [hvolumes] at h
      cases h
    · rw [hvolumes] at h
      cases h
      exact ⟨volumes, of_decide_eq_true (Bool.eq_true_of_not_eq_false hhealthy)⟩

/-- What a reservation leaves: a refused one leaves the file, and one that is granted with a snapshot
has written a ledger that passes the check with it. -/
structure ReserveMeets (policy : StoragePolicy) (f : LedgerFile) (tree : StorageTreeSnapshot)
    (decision : StorageDecision) (t : LedgerFile) : Prop where
  refused : decision.allowed = false → t = f
  granted : decision.allowed = true → decision.reason = .reserved → ∃ ledger volumes,
    t.ledger policy.limits = .ok ledger ∧
      snapshotReason policy.limits tree ledger.reservations volumes = .healthy

theorem ReserveMeets.of_refused (h : decision.allowed = false) :
    ReserveMeets policy f tree decision f :=
  ⟨fun _ => rfl, fun hallow => by rw [h] at hallow; cases hallow⟩

theorem bodyMeets_reserveExisting {existing : ReservationRecord} :
    BodyMeets policy host f (ReserveMeets policy f tree)
      (reserveExisting policy host ledger existing amounts tree) := by
  unfold reserveExisting
  split_ifs
  · exact bodyMeets_pure (.of_refused rfl)
  · refine bodyMeets_ofExcept fun snapshot _ => ?_
    split_ifs
    · exact bodyMeets_pure (.of_refused rfl)
    · exact bodyMeets_pure ⟨fun _ => rfl, fun _ hreason => (nomatch hreason)⟩

/-- A new reservation that is granted has written a ledger that passes the check with it; a refused
one leaves the file. -/
theorem bodyMeets_reserveNew {jobId : DurableRecordId}
    (hledger : f.ledger policy.limits = .ok ledger) (hcanon : Canonical policy.limits ledger)
    (hnew : ledger.find jobId = none) (hamounts : WithinJobLimit policy.limits amounts.1 amounts.2) :
    BodyMeets policy host f (ReserveMeets policy f tree)
      (reserveNew policy host ledger jobId amounts tree) := by
  unfold reserveNew
  split_ifs with hcnt
  · exact bodyMeets_pure (.of_refused rfl)
  · refine bodyMeets_ofExcept fun createdAt hcreate => bodyMeets_ofExcept fun snapshot hsnap => ?_
    split_ifs with hhealthy
    · exact bodyMeets_pure (.of_refused rfl)
    · refine bodyMeets_writeLedger hledger
        (hcanon.adding hnew (not_le.1 hcnt) hamounts (isTimestamp_of_format hcreate))
        fun hread => ⟨fun hd => (nomatch hd), fun _ _ => ?_⟩
      obtain ⟨volumes, hvolumes⟩ := takeSnapshot_healthy hsnap hhealthy
      exact ⟨_, volumes, hread, hvolumes⟩

/-- Under the lock a reservation is that of a job on the ledger or a new one, and what it leaves
passes the check. -/
theorem bodyMeets_reserveLocked {id : DurableRecordId} {coreBytes spoolBytes : Int}
    (hamounts : validateReservationBytes policy.limits coreBytes spoolBytes = .ok amounts) :
    BodyMeets policy host f (ReserveMeets policy f tree)
      (ofExcept host.lock >>= fun _ => readLedger policy.limits host >>= fun ledger =>
        match ledger.find id with
        | some existing => reserveExisting policy host ledger existing amounts tree
        | none => reserveNew policy host ledger id amounts tree) := by
  refine bodyMeets_ofExcept fun _ _ => bodyMeets_readLedger fun ledger hledger hcanon => ?_
  rcases hfind : ledger.find id with _ | existing
  · exact bodyMeets_reserveNew hledger hcanon hfind (validateReservationBytes_ok hamounts).1
  · exact bodyMeets_reserveExisting

/-- **The body of `reserve`.** -/
theorem wp_reserve (jobId : String) (coreBytes spoolBytes : Int)
    (treeSnapshot : Option StorageTreeSnapshot) :
    wp (reserve policy host jobId coreBytes spoolBytes treeSnapshot) (LedgerStep policy.limits f)
      (fun decision t _ => LedgerStep policy.limits f t ∧
        ((∃ tree, (∀ given, treeSnapshot = some given → tree = given) ∧
          ReserveMeets policy f tree decision t) ∨
        decision.allowed = false ∧ ∃ error, host.persistence = .unconfirmed error ∧
          errorDecision error = .ok decision))
      (fun _ t _ => LedgerStep policy.limits f t) f () := by
  refine wp_handled (R := fun decision t => ∃ tree, (∀ given, treeSnapshot = some given →
    tree = given) ∧ ReserveMeets policy f tree decision t) ?_ ?_
  · refine bodyMeets_ofExcept fun id _ => bodyMeets_ofExcept fun amounts hamounts =>
      bodyMeets_ofExcept fun tree htree => ?_
    have hgiven : ∀ given, treeSnapshot = some given → tree = given := by
      rintro given rfl
      cases htree
      rfl
    exact wp_imp (bodyMeets_reserveLocked hamounts) fun _ _ _ h => ⟨h.1, tree, hgiven, h.2⟩
  · intro decision hdenied _
    rcases treeSnapshot with _ | given
    · exact ⟨⟨default, default⟩, by rintro _ ⟨⟩, .of_refused hdenied⟩
    · exact ⟨given, fun _ h => Option.some.inj h, .of_refused hdenied⟩

/-- A reconcile that is not allowed has left the file as it was, or has recorded the active
reservations and found the storage unhealthy. -/
theorem bodyMeets_reconcileActive {requested : List (String × Option (Int × Int))}
    {active : List ActiveReservation} (hledger : f.ledger policy.limits = .ok ledger)
    (hcanon : Canonical policy.limits ledger)
    (hactive : normalizeReservations policy.limits [] requested = .ok active)
    (hcnt : requested.length ≤ policy.limits.maxReservations) :
    BodyMeets policy host f (fun decision t => decision.allowed = false →
        (LedgerCall.reconcileReservations requested).Refused policy.limits f decision t)
      (reconcileActive policy host ledger (sortByKey ActiveReservation.order active)) := by
  obtain ⟨hset, hlen⟩ := normalizeReservations_ok (⟨List.nodup_nil, nofun⟩ :
    ActiveSet policy.limits []) hactive
  have hlim : active.length ≤ policy.limits.maxReservations := by
    rw [List.length_nil] at hlen
    omega
  unfold reconcileActive
  dsimp only
  by_cases hconf : (sortByKey ActiveReservation.order active).filterMap
      (reservationConflict ledger) ≠ []
  · rw [if_pos hconf]
    exact bodyMeets_pure fun _ => rfl
  · have hclear : Unconflicted ledger (sortByKey ActiveReservation.order active) :=
      not_not.1 hconf
    rw [if_neg hconf]
    refine bodyMeets_ofExcept fun now hnow => bodyMeets_ofExcept fun snapshot _ => ?_
    have hpersist : ∀ decision : StorageDecision,
        (decision.allowed = false → decision.status = some snapshot ∧ snapshot.healthy = false) →
        BodyMeets policy host f (fun decision t => decision.allowed = false →
            (LedgerCall.reconcileReservations requested).Refused policy.limits f decision t)
          ((if reconciliationChanges ledger (sortByKey ActiveReservation.order active) then
              writeLedger policy.limits host
                { generation := ledger.generation +
                    if reconciliationChanges ledger (sortByKey ActiveReservation.order active)
                    then 1 else 0,
                  reservations :=
                    (sortByKey ActiveReservation.order active).map (adoptedRecord ledger now) }
            else pure ()) >>= fun _ => pure decision) := by
      intro decision hdec
      have href : ∀ {t : LedgerFile} {recorded : LedgerState},
          t.ledger policy.limits = .ok recorded → recorded.Records active →
          decision.allowed = false →
          (LedgerCall.reconcileReservations requested).Refused policy.limits f decision t := by
        intro t recorded hrecorded hrecs hd
        obtain ⟨hstat, hhealthy⟩ := hdec hd
        simp only [LedgerCall.Refused, hstat]
        exact ⟨hhealthy, active, recorded, hactive, hrecorded, hrecs⟩
      cases hchanges : reconciliationChanges ledger (sortByKey ActiveReservation.order active) with
      | true =>
        exact bodyMeets_writeLedger hledger
          (hclear.supersedes hcanon hset hlim (isTimestamp_of_format hnow) (changes_true hchanges))
          fun hread hd => href hread (hclear.records _ now) hd
      | false =>
        obtain ⟨hall, hnone⟩ := changes_false hchanges
        exact bodyMeets_pure fun hd =>
          href hledger (hclear.records_self hcanon hset hall hnone) hd
    by_cases hhealthy : snapshot.healthy = false
    · rw [if_pos hhealthy]
      exact hpersist _ fun _ => ⟨rfl, hhealthy⟩
    · rw [if_neg hhealthy]
      exact hpersist _ fun hd => (nomatch hd)

/-- **Every call** leaves the file or supersedes its ledger; a refused one leaves what `Refused`
says, unless its replacement of the file could not be confirmed. -/
theorem LedgerCall.wp_prog (call : LedgerCall) :
    wp (call.prog policy host) (LedgerStep policy.limits f)
      (fun decision t _ => LedgerStep policy.limits f t ∧ (decision.allowed = false →
        call.Refused policy.limits f decision t ∨ ∃ error, host.persistence = .unconfirmed error ∧
          errorDecision error = .ok decision))
      (fun _ t _ => LedgerStep policy.limits f t) f () := by
  have href : ∀ {R : StorageDecision → LedgerFile → Prop} {m : LedgerOp StorageDecision},
      BodyMeets policy host f (fun decision t => decision.allowed = false → R decision t) m →
      (∀ decision : StorageDecision, decision.status = none → R decision f) →
      wp (Prog.handle errorDecision m) (LedgerStep policy.limits f)
        (fun decision t _ => LedgerStep policy.limits f t ∧ (decision.allowed = false →
          R decision t ∨ ∃ error, host.persistence = .unconfirmed error ∧
            errorDecision error = .ok decision))
        (fun _ t _ => LedgerStep policy.limits f t) f () := by
    intro R m hm hR
    refine wp_imp (wp_handled hm fun decision _ hstat _ => hR decision hstat)
      fun decision t _ h => ⟨h.1, fun hdenied => ?_⟩
    exact h.2.imp (fun hmeets => hmeets hdenied) fun hunconf => hunconf.2
  cases call with
  | reserve jobId coreBytes spoolBytes treeSnapshot =>
    refine wp_imp (wp_reserve jobId coreBytes spoolBytes treeSnapshot)
      fun decision t _ h => ⟨h.1, fun hdenied => ?_⟩
    rcases h.2 with ⟨_, -, hmeets⟩ | ⟨-, hunconf⟩
    · exact .inl (hmeets.refused hdenied)
    · exact .inr hunconf
  | release =>
    refine href (R := fun _ t => t = f) ?_ fun _ _ => rfl
    refine bodyMeets_ofExcept fun id _ => bodyMeets_ofExcept fun _ _ =>
      bodyMeets_readLedger fun ledger hledger hcanon => ?_
    rcases hfind : ledger.find id with _ | existing
    · exact bodyMeets_pure fun hd => (nomatch hd)
    · obtain ⟨hmem, hid⟩ := find_some hfind
      refine bodyMeets_writeLedger hledger (hcanon.keeping hmem ?_) fun _ hd => (nomatch hd)
      simp [hid]
  | verifyReservation =>
    refine href (R := fun _ t => t = f) ?_ fun _ _ => rfl
    refine bodyMeets_ofExcept fun id _ => bodyMeets_ofExcept fun amounts _ =>
      bodyMeets_ofExcept fun _ _ => bodyMeets_readLedger fun ledger _ _ => ?_
    rcases hfind : ledger.find id with _ | existing
    · exact bodyMeets_pure fun _ => rfl
    · show BodyMeets _ _ _ _ (if _ then _ else _)
      split_ifs
      · exact bodyMeets_pure fun _ => rfl
      · exact bodyMeets_pure fun hd => (nomatch hd)
  | reconcile =>
    refine href (R := fun _ t => t = f) ?_ fun _ _ => rfl
    refine bodyMeets_require fun _ => bodyMeets_ofExcept fun active _ =>
      bodyMeets_ofExcept fun _ _ => bodyMeets_readLedger fun ledger hledger hcanon => ?_
    dsimp only
    split_ifs with hrel
    · exact bodyMeets_pure fun hd => (nomatch hd)
    · obtain ⟨jobId, hin⟩ := List.exists_mem_of_ne_nil _ hrel
      obtain ⟨_, hrec, -⟩ := List.mem_map.1 (mem_sortByKey.1 hin)
      obtain ⟨hmem, hout⟩ := List.mem_filter.1 hrec
      refine bodyMeets_writeLedger hledger (hcanon.keeping hmem ?_) fun _ hd => (nomatch hd)
      simpa using hout
  | reconcileReservations requested =>
    refine href (R := fun decision t =>
      (LedgerCall.reconcileReservations requested).Refused policy.limits f decision t) ?_ ?_
    · refine bodyMeets_require fun hcnt => bodyMeets_ofExcept fun active hactive =>
        bodyMeets_ofExcept fun _ _ => bodyMeets_readLedger fun ledger hledger hcanon => ?_
      exact bodyMeets_reconcileActive hledger hcanon hactive (of_decide_eq_true hcnt)
    · intro decision hstat
      simp only [LedgerCall.Refused, hstat]

/-! ### Runs -/

/-- **A run of calls on the ledger file**, with the number of changes on the way.  Each call is stopped
after its durable write or run to its end. -/
inductive LedgerRun (policy : StoragePolicy) (f₀ : LedgerFile) : Nat → LedgerFile → Prop where
  | start : LedgerRun policy f₀ 0 f₀
  | step {changes : Nat} {f t : LedgerFile} (call : LedgerCall) (host : StorageHost) :
      LedgerRun policy f₀ changes f → t ∈ (call.prog policy host).halts f () →
      LedgerRun policy f₀ (changes + if t = f then 0 else 1) t

theorem LedgerCall.step (call : LedgerCall) (ht : t ∈ (call.prog policy host).halts f ()) :
    LedgerStep policy.limits f t :=
  wp_halts (wp_imp call.wp_prog fun _ _ _ h => h.1) (.inl rfl) t ht

/-- The generation counts the steps that change the file. -/
theorem LedgerStep.generation (h : LedgerStep limits f t) (hledger : f.ledger limits = .ok ledger) :
    ∃ next, t.ledger limits = .ok next ∧
      next.generation = ledger.generation + if t = f then 0 else 1 := by
  rcases h with rfl | ⟨_, next, hbefore, -, hnext, hsupersedes⟩
  · exact ⟨ledger, hledger, by rw [if_pos rfl, Nat.add_zero]⟩
  · rw [hledger] at hbefore
    cases hbefore
    have hchg : t ≠ f := by
      rintro rfl
      rw [hledger] at hnext
      cases hnext
      exact hsupersedes.changed rfl
    exact ⟨next, hnext, by rw [if_neg hchg, hsupersedes.generation]⟩

/-- **Along a run** a readable ledger stays readable, and its generation counts the changes. -/
theorem LedgerRun.generation {f₀ : LedgerFile} {changes : Nat}
    (h : LedgerRun policy f₀ changes f) (hledger : f₀.ledger policy.limits = .ok ledger) :
    ∃ last, f.ledger policy.limits = .ok last ∧
      last.generation = ledger.generation + changes := by
  induction h with
  | start => exact ⟨ledger, hledger, rfl⟩
  | @step changes f t call host _ ht ih =>
    obtain ⟨last, hlast, _⟩ := ih
    obtain ⟨next, hnext, _⟩ := (call.step ht).generation hlast
    exact ⟨next, hnext, by omega⟩

/-- **The ledger is well formed and changes atomically.**  In every run a ledger that can be read at
the start can be read at the end, is canonical and has counted the changes; whatever a next call
leaves, stopped or not, is the file or a ledger that supersedes the one in it and is read back as it
was encoded; and a refused call leaves the file, except that a reconciliation under pressure has
recorded the active set and that an unconfirmed replacement may have taken place. -/
theorem reservation_ledger_well_formed {f₀ : LedgerFile} {changes : Nat}
    (h : LedgerRun policy f₀ changes f) :
    (∀ first, f₀.ledger policy.limits = .ok first → ∃ last, f.ledger policy.limits = .ok last ∧
      Canonical policy.limits last ∧ last.generation = first.generation + changes) ∧
    ∀ (call : LedgerCall) (host : StorageHost),
      (∀ t ∈ (call.prog policy host).halts f (), LedgerStep policy.limits f t) ∧
      ∀ decision, ((call.prog policy host).run f ()).result = .ok decision →
        decision.allowed = false →
        call.Refused policy.limits f decision ((call.prog policy host).run f ()).store ∨
          ∃ error, host.persistence = .unconfirmed error ∧
            errorDecision error = .ok decision := by
  refine ⟨fun first hfirst => ?_, fun call host => ⟨fun t ht => call.step ht, ?_⟩⟩
  · obtain ⟨last, hlast, hgen⟩ := h.generation hfirst
    exact ⟨last, hlast, LedgerFile.ledger_canonical hlast, hgen⟩
  · intro decision hres hdenied
    have hcall := (wp_result call.wp_prog hres).2 hdenied
    exact hcall

end

/-! ### Sample runs -/

/-- A reservation of the sample runs. -/
def sampleReservation (jobId : DurableRecordId) : ReservationRecord where
  jobId := jobId
  coreBytes := 100
  spoolBytes := 200
  createdAt := "1970-01-01T00:00:00Z"

/-- The jobs of the sample runs. -/
def sampleStorageJob : DurableRecordId := ⟨"job-1", by decide⟩

/-- The second job of the sample runs. -/
def sampleLaterJob : DurableRecordId := ⟨"job-2", by decide⟩

/-- The payload of a ledger of the sample runs. -/
def sampleLedgerPayload (generation : Nat) (jobIds : List DurableRecordId) : Json :=
  .obj [("generation", .num generation ""),
      ("reservations", .arr (jobIds.map fun jobId => .obj (sampleReservation jobId).written)),
      ("schema", .str ledgerSchema)]

/-- The digests and the lengths of the ledgers of the sample runs. -/
@[reducible]
def sampleStoragePlatform : StoragePlatform where
  sha256 value :=
    if value = sampleLedgerPayload 1 [sampleStorageJob] then
      "c695963c5c969e34a986403eecc011400768af30616bd65b674d5f94c8bf9cc5"
    else if value = sampleLedgerPayload 2 [] then
      "e7bdc6ce0aa3bd44c06530ae2c997fd14b10ee1932c9967ef5e9b816b0d20a75"
    else if value = sampleLedgerPayload 3 [sampleLaterJob] then
      "1be1fc596b8ac70eb764d228c07f5f4bee0b053056679e72c350b1dab021d298"
    else ""
  sha256_ascii value := by
    split_ifs
    all_goals decide
  documentBytes value :=
    if Dict.get ((value.obj?).getD []) "reservations" = .arr [] then 183 else 317
  documentBytes_pos value := by
    split_ifs
    all_goals decide
  isoformat _ := "1970-01-01T00:00:00"
  utcOffset _ := some (some 0)
  utcOffset_isoformat _ := rfl

theorem sampleStorageLimits_reservations : 0 < 8 := by decide

/-- The limits of the sample runs. -/
def sampleStorageLimits : StorageLimits where
  coreHighWaterBytes := 1000
  spoolHighWaterBytes := 1000
  totalHighWaterBytes := 2000
  minimumFreeBytes := 10
  maxJobReservationBytes := 500
  maxScanEntries := 100
  maxScanDepth := 8
  maxScanAccountedBytes := 5000
  maxLedgerBytes := 4096
  maxReservations := 8
  maxJobReservationBytes_pos := by decide
  maxReservations_pos := sampleStorageLimits_reservations
  core_le_total := by decide
  spool_le_total := by decide
  job_le_scan := by decide

/-- The policy of the sample runs. -/
def sampleStoragePolicy : StoragePolicy where
  coreRoot := "/core"
  spoolRoot := "/spool"
  stateRoot := .inCore
  limits := sampleStorageLimits

/-- Empty trees. -/
def sampleTreeSnapshot : StorageTreeSnapshot where
  core := ⟨"/core", 0, 0, 0, 1, 0⟩
  spool := ⟨"/spool", 0, 0, 0, 1, 0⟩

/-- Two empty trees on one volume with room. -/
def sampleStorageHost (persistence : Persistence) : StorageHost where
  lock := .ok ()
  inspected := .ok ()
  scan := .ok sampleTreeSnapshot
  coreVolume := .ok "volume"
  spoolVolume := .ok "volume"
  freeBytes _ := .ok 100000
  clock := .aware 0
  persistence := persistence

/-- The reservation is asked for. -/
def sampleReserve (persistence : Persistence) : LedgerOp StorageDecision :=
  @LedgerCall.prog sampleStoragePlatform sampleStoragePolicy (sampleStorageHost persistence)
    (.reserve "job-1" 100 200 (some sampleTreeSnapshot))

/-- The failed sync of the directory of the ledger. -/
def sampleSyncFailure : StorageError :=
  .policy .persistenceFailure "storage reservation ledger could not be persisted atomically"
    [("error", .str "OSError")]

/-- The ledger in a file. -/
def sampleLedger (f : LedgerFile) : Option LedgerState :=
  (@LedgerFile.ledger sampleStoragePlatform sampleStorageLimits f).toOption

/-- **A refused call can have replaced the ledger**: the sync of the directory fails after the
replacement, the reservation is refused, and the ledger holds it. -/
theorem refused_reserve_persists :
    sampleLedger .absent = some ⟨0, []⟩ ∧
    (((sampleReserve (.unconfirmed sampleSyncFailure)).run .absent ()).result.toOption.map fun
      decision => (decision.allowed, decision.reason)) = some (false, .persistenceFailure) ∧
    sampleLedger ((sampleReserve (.unconfirmed sampleSyncFailure)).run .absent ()).store =
      some ⟨1, [sampleReservation sampleStorageJob]⟩ := by
  decide +kernel

/-- The store after a reservation that is granted. -/
def sampleReserved : LedgerFile := ((sampleReserve .committed).run .absent ()).store

/-- One change, one generation. -/
theorem reservation_ledger_well_formed_sample :
    ∃ last, @LedgerFile.ledger sampleStoragePlatform sampleStorageLimits sampleReserved = .ok last ∧
      @Canonical sampleStoragePlatform sampleStorageLimits last ∧ last.generation = 1 := by
  let := sampleStoragePlatform
  have hrun : LedgerRun sampleStoragePolicy .absent (0 + if sampleReserved = .absent then 0 else 1)
      sampleReserved :=
    .step (.reserve "job-1" 100 200 (some sampleTreeSnapshot)) (sampleStorageHost .committed)
      .start (List.mem_append_right _ List.mem_cons_self)
  rw [if_neg (by decide +kernel)] at hrun
  exact (reservation_ledger_well_formed hrun).1 ⟨0, []⟩ rfl

end ClioQueue
