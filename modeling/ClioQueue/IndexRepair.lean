/-
# Rebuilding the lease indexes

`repair_lease_operational_indexes` clears every index file and builds it again
from the canonical leases and their jobs.  While its intent is pending the
canonical leases are those of the table and an index file is that of the table or
missing (`Repairing`); the capacity pair is whatever it was until the rebuilt one
is written.
-/

import ClioQueue.LeaseOperations

namespace ClioQueue

open Durable Durable.Prog Durable.Files

section

variable {T : LeaseTable} {s t : Store} {v : Supply} {C : Store → Prop} {E : Post RelayError}

/-! ### The canonical leases of a table -/

theorem leasesListed_eq_some {p : Path} {c : Content p} {x : DurableRecordId × Lease}
    (h : leasesListed p c = some x) : p = .lease x.1 := by
  unfold leasesListed at h
  split at h
  · cases h
    rfl
  · cases h

/-- The canonical leases of the store are the leases of the table. -/
theorem leasesListed_perm (hfiles : ∀ id, s.read (.lease id) = (T.read id).map LiveLease.lease) :
    (s.collect leasesListed).Perm ((AList.entries T).map fun e => (e.1, e.2.lease)) := by
  have hnd : (s.collect leasesListed).Nodup := by
    refine nodup_collect fun p c q d x _ _ hp hq => ?_
    rw [leasesListed_eq_some hp, leasesListed_eq_some hq]
  have hnd' : ((AList.entries T).map fun e => (e.1, e.2.lease)).Nodup := by
    refine List.Nodup.of_map Prod.fst ?_
    rw [List.map_map]
    exact T.nodupKeys
  refine (List.perm_ext_iff_of_nodup hnd hnd').2 fun ⟨id, lease⟩ => ?_
  rw [mem_collect, List.mem_map]
  constructor
  · rintro ⟨p, c, hread, hf⟩
    obtain rfl := leasesListed_eq_some hf
    cases hf
    rw [hfiles] at hread
    obtain ⟨e, he, rfl⟩ := Option.map_eq_some_iff.1 hread
    exact ⟨⟨_, e⟩, Files.mem_entries.2 he, rfl⟩
  · rintro ⟨⟨id', e⟩, he, heq⟩
    cases heq
    exact ⟨.lease id', e.lease, by rw [hfiles, Files.mem_entries.1 he]; rfl, rfl⟩

/-- The canonical leases of a table with their jobs. -/
structure RecordsOf (T : LeaseTable) (records : List (Lease × RelayJob)) : Prop where
  live : ∀ entry ∈ records, T.read entry.1.leaseId = some (.of entry.1 entry.2)
  jobId : ∀ entry ∈ records, entry.1.jobId = entry.2.jobId
  all : ∀ id e, T.read id = some e → ∃ entry ∈ records, entry.1.leaseId = id
  scopes : (records.map fun entry => entry.2.scope : List LeaseScope) = T.scopes

/-- The leases that are indexed are the scanned ones, each with the job that is read for it. -/
theorem wp_indexLeases {Q : Post (List (Lease × RelayJob))} {indexed : List (Lease × RelayJob)}
    {leases : List Lease} (hjobs : JobsOk s)
    (hread : ∀ entry ∈ indexed, s.read (.job entry.1.jobId) = some entry.2)
    (hQ : ∀ records, records.map Prod.fst = indexed.map Prod.fst ++ leases →
      (∀ entry ∈ records, s.read (.job entry.1.jobId) = some entry.2) → Q records s v)
    (hE : ∀ err, E err s v) :
    wp (indexLeases indexed leases) C Q E s v := by
  induction leases generalizing indexed with
  | nil => exact (wp_pure _).2 (hQ indexed (by simp) hread)
  | cons lease leases ih =>
    rw [indexLeases, wp_bind]
    refine wp_readJob hjobs ?_
    rcases hjob : s.read (.job lease.jobId) with _ | job
    · exact (wp_raise _).2 (hE _)
    · refine wp_require_then (fun _ => ?_) fun _ => hE _
      refine wp_require_then (fun _ => ?_) fun _ => hE _
      refine ih (fun entry hent => ?_) fun records hmap => hQ records (by simpa using hmap)
      rcases List.mem_append.1 hent with hent | hent
      · exact hread entry hent
      · obtain rfl := List.mem_singleton.1 hent
        exact hjob

/-- **The canonical records are those of the table.** -/
theorem wp_canonicalLeaseCapacityRecords
    {Q : Post (List (Lease × RelayJob) × Multiset LeaseScope)} {limit : Nat}
    (hjobs : JobsOk s) (hT : T.Backed s)
    (hfiles : ∀ id, s.read (.lease id) = (T.read id).map LiveLease.lease)
    (hQ : ∀ records, RecordsOf T records → Multiset.card T.scopes ≤ maxLiveLeaseRecords →
      Q (records, T.scopes) s v)
    (hE : ∀ err, E err s v) :
    wp (canonicalLeaseCapacityRecords limit) C Q E s v := by
  have hperm := leasesListed_perm hfiles
  unfold canonicalLeaseCapacityRecords scanMany
  simp only [wp_bind, wp_listing, wp_require, wp_pure]
  refine ⟨fun _ => ⟨fun hbd => ?_, fun _ => hE _⟩, fun _ => hE _⟩
  have hall : (s.collect leasesListed).take limit = s.collect leasesListed := by
    simpa using hbd
  rw [hall]
  refine wp_indexLeases hjobs (by simp) (fun records hmap hread => ?_) hE
  have hleases : (records.map Prod.fst).Perm ((AList.entries T).map fun e => e.2.lease) := by
    rw [hmap]
    simpa [List.map_map, Function.comp_def] using hperm.map Prod.snd
  have hlive : ∀ entry ∈ records, T.read entry.1.leaseId = some (.of entry.1 entry.2) := by
    intro entry hent
    obtain ⟨⟨id, e⟩, he, hlease⟩ := List.mem_map.1
      (hleases.subset (List.mem_map_of_mem (f := Prod.fst) hent))
    have he := Files.mem_entries.1 he
    have hid := hT.named id e he
    have hjob : s.read (.job e.lease.jobId) = some entry.2 := by
      rw [hlease]
      exact hread entry hent
    obtain ⟨hof, -, -⟩ := hT.job_of hjobs he hjob
    rw [← hlease, hid, he, hof.eq_of]
    rfl
  have hscopes : (records.map fun entry => entry.2.scope : List LeaseScope) =
      (T.scopes : Multiset LeaseScope) := by
    have hsame := hleases.map fun lease => (T.read lease.leaseId).map LiveLease.scope
    have hleft : (records.map Prod.fst).map (fun lease => (T.read lease.leaseId).map LiveLease.scope) =
        (records.map fun entry => entry.2.scope).map some := by
      rw [List.map_map, List.map_map]
      refine List.map_congr_left fun entry hent => ?_
      rw [Function.comp_apply, hlive entry hent]
      rfl
    have hright : ((AList.entries T).map fun e => e.2.lease).map
        (fun lease => (T.read lease.leaseId).map LiveLease.scope) =
          ((AList.entries T).map fun e => e.2.scope).map some := by
      rw [List.map_map, List.map_map]
      refine List.map_congr_left fun e he => ?_
      have he := Files.mem_entries.1 he
      rw [Function.comp_apply, hT.named _ _ he, he]
      rfl
    rw [hleft, hright, List.map_perm_map_iff (Option.some_injective _)] at hsame
    exact Multiset.coe_eq_coe.2 hsame
  rw [wp_ofExcept, hscopes]
  refine ⟨fun counts hcnt => ?_, fun err _ => hE err⟩
  have hsmall : Multiset.card T.scopes ≤ maxLiveLeaseRecords := by
    by_contra hlarge
    unfold normalizeLeaseCapacityCounts at hcnt
    rw [if_pos (not_le.1 hlarge)] at hcnt
    split at hcnt <;> cases hcnt
  rw [LeaseCapacityPair.Exact.normalize_ok hsmall] at hcnt
  cases hcnt
  refine hQ records ⟨hlive, fun entry hent => ?_, fun id e he => ?_, hscopes⟩ hsmall
  · exact (hjobs.named _ _ (hread entry hent)).symm
  · have hmem : e.lease ∈ records.map Prod.fst :=
      hleases.symm.subset (List.mem_map.2 ⟨⟨id, e⟩, Files.mem_entries.2 he, rfl⟩)
    obtain ⟨entry, hent, hlease⟩ := List.mem_map.1 hmem
    exact ⟨entry, hent, by rw [hlease, hT.named id e he]⟩

/-! ### The rebuild -/

/-- What the table puts into a lease file, the index files left out. -/
def LeaseTable.bareFile (T : LeaseTable) (p : Path) : Option (Content p) :=
  if leaseIndexFile p then none else T.file p

/-- The files of a repair. -/
def repairFile (p : Path) : Prop :=
  leaseFile p ∨ capacityFile p ∨ p = .migrationState ∨ p = .intent .leaseIndexRepair

/-- A repair is under way. -/
structure Repairing (limit : Nat) (target : LeaseCapacityPair) (restoreComplete : Bool)
    (T : LeaseTable) (s t : Store) : Prop where
  agree : Agree repairFile s t
  intent : t.read (.intent .leaseIndexRepair) = some (.leaseIndexRepair limit target restoreComplete)
  moving : Files.Moving leaseFile T.bareFile T.file (fun _ => False) t

/-- A repair is over. -/
structure Repaired (T : LeaseTable) (s t : Store) : Prop where
  agree : Agree repairFile s t
  intent : t.read (.intent .leaseIndexRepair) = none
  atRest : AtRest T t

variable {limit : Nat} {target : LeaseCapacityPair} {restoreComplete : Bool} {s₀ : Store}

theorem Repairing.moved {D : Path → Prop} (h : Repairing limit target restoreComplete T s₀ s)
    (ht : MovedFrom s T.bareFile T.file D t) : Repairing limit target restoreComplete T s₀ t := by
  refine ⟨h.agree.trans (ht.agree.mono fun p hp => .inl hp), ?_, ht.moving.forget⟩
  rw [ht.agree _ (by simp [leaseFile]), h.intent]

/-- The canonical leases do not change. -/
theorem Repairing.leases (h : Repairing limit target restoreComplete T s₀ s)
    (leaseId : DurableRecordId) :
    s.read (.lease leaseId) = (T.read leaseId).map LiveLease.lease := by
  rw [← LeaseTable.file_lease]
  exact (h.moving.between (.lease leaseId) trivial).elim id id

omit E in
theorem leaseIndexFile.leaseFile {p : Path} (h : leaseIndexFile p = true) : leaseFile p := by
  cases p <;> trivial

/-- **Clearing the indexes.** -/
theorem wp_clearLeaseOperationalIndexes {Q : Post Unit}
    (h : Files.Moving leaseFile T.bareFile T.file (fun _ => False) s)
    (hC : ∀ t, MovedFrom s T.bareFile T.file (fun _ => False) t → C t)
    (hQ : ∀ t, MovedFrom s T.bareFile T.file (fun _ => False) t → Q () t v)
    (hE : ∀ err, E err s v) : wp clearLeaseOperationalIndexes C Q E s v := by
  unfold clearLeaseOperationalIndexes
  rw [wp_bind, wp_listing]
  refine wp_require_then (fun _ => ?_) fun _ => hE _
  refine wp_each (fun rest t w => w = v ∧ (∀ p ∈ rest, leaseIndexFile p = true) ∧
      MovedFrom s T.bareFile T.file (fun _ => False) t) _ (fun p rest t w hJ => ?_)
    (fun t w hJ => hJ.1 ▸ hQ t hJ.2.2) _ s v ⟨rfl, fun p hp => ?_, .start h⟩
  · obtain ⟨rfl, hrest, ht⟩ := hJ
    have hidx := hrest p (.head _)
    have hnone : T.bareFile p = none := if_pos hidx
    have m : MovedFrom s T.bareFile T.file (fun _ => False) (t.unlink p) :=
      ⟨ht.agree.trans (agree_unlink (leaseIndexFile.leaseFile hidx) t),
        (ht.moving.turn.unlink hnone).turn⟩
    exact wp_unlink.2 ⟨hC _ m, rfl, fun q hq => hrest q (.tail _ hq), m⟩
  · obtain ⟨q, c, -, hq⟩ := Files.mem_collect.1 hp
    split at hq
    · next hidx =>
        cases hq
        exact hidx
    · cases hq

theorem repairFile.not_jobFile {p : Path} (hp : repairFile p) : ¬ jobFile p := by
  rcases hp with hp | hp | rfl | rfl
  · exact hp.not_jobFile
  · exact hp.not_jobFile
  · exact id
  · exact id

variable [Platform]

/-- All leases are filed again, one after the other: at the end the lease files are those of the
table, and each stop lies between the bare and the full table. -/
theorem wp_rebuildLeaseIndexes {Q : Post Unit}
    {records : List (Lease × RelayJob)} (hT : T.Backed s) (hjobs : JobsOk s)
    (hrecs : RecordsOf T records)
    (h : Files.Moving leaseFile T.bareFile T.file (fun _ => False) s)
    (hC : ∀ t, MovedFrom s T.bareFile T.file (fun _ => False) t → C t)
    (hQ : ∀ t, MovedFrom s T.bareFile T.file (fun _ => False) t →
      (∀ p, leaseFile p → t.read p = T.file p) → Q () t v)
    (hE : ∀ err t, MovedFrom s T.bareFile T.file (fun _ => False) t → E err t v) :
    wp (each rebuildLeaseIndexes records) C Q E s v := by
  refine wp_each (fun rest t w => w = v ∧ (∀ entry ∈ rest, entry ∈ records) ∧
      MovedFrom s T.bareFile T.file (fun p => ∃ entry ∈ records, entry ∉ rest ∧
        p ∈ (LiveLease.of entry.1 entry.2).indexFiles) t) _ (fun entry rest t w hJ => ?_)
    (fun t w hJ => ?_) records s v ⟨rfl, fun _ => id, (MovedFrom.start h).mono ?_⟩
  · obtain ⟨rfl, hrest, ht⟩ := hJ
    have hent := hrest entry (.head _)
    have hlive := hrecs.live entry hent
    have hcl : entry.2.cluster ≠ "" := by
      obtain ⟨job, hjob, hof⟩ := hT.job _ _ hlive
      have := hjobs.cluster _ _ hjob
      rwa [hof.1] at this
    have hg : ∀ p ∈ (LiveLease.of entry.1 entry.2).indexFiles,
        T.file p = (LiveLease.of entry.1 entry.2).content p := fun p hp =>
      LeaseTable.file_live hT.named hlive (.tail _ (.tail _ hp))
    unfold rebuildLeaseIndexes
    rw [wp_bind]
    refine wp_syncLeaseOperationalIndexes_new (e := .of entry.1 entry.2)
      (hrecs.jobId entry hent) rfl rfl ht hg (fun identity hread => ?_) hC
      (fun t ht => ?_) fun _ err t ht => hE err t ht.forget
    · have hfile := hg (LiveLease.of entry.1 entry.2).identity.indexPath (.head _)
      rcases ht.moving.between (LiveLease.of entry.1 entry.2).identity.indexPath trivial with
        hr | hr
      · have hnone : T.bareFile (LiveLease.of entry.1 entry.2).identity.indexPath = none :=
          if_pos rfl
        rw [hnone] at hr
        exact absurd (hr.symm.trans hread) (by simp)
      · obtain rfl : identity = (LiveLease.of entry.1 entry.2).identity :=
          Option.some.inj ((hread.symm.trans hr).trans hfile)
        exact ⟨rfl, hcl⟩
    · refine (wp_pure _).2 ⟨rfl, fun e he => hrest e (.tail _ he), ht.mono ?_⟩
      rintro p ⟨other, hother, hout, hp⟩
      by_cases heq : other = entry
      · exact .inl (heq ▸ hp)
      · exact .inr ⟨other, hother, by simp [heq, hout], hp⟩
  · obtain ⟨rfl, -, ht⟩ := hJ
    refine hQ t ht.forget (ht.moving.finish fun p _ hp => ?_)
    unfold LeaseTable.bareFile
    split
    · next hidx =>
        rcases hfile : T.file p with _ | c
        · rfl
        · obtain ⟨id, e, he, hp'⟩ := LeaseTable.exists_of_file hT.named hfile
          obtain ⟨entry, hent, hid⟩ := hrecs.all id e he
          have heq := hrecs.live entry hent
          rw [hid, he] at heq
          cases heq
          rcases List.mem_cons.1 hp' with rfl | hp'
          · cases hidx
          · rcases List.mem_cons.1 hp' with rfl | hp'
            · cases hidx
            · exact absurd ⟨entry, hent, List.not_mem_nil, hp'⟩ hp
    · rfl
  · rintro p ⟨entry, hin, hout, -⟩
    exact hout hin

/-- **The replay of a repair**, from wherever it stopped before. -/
theorem wp_applyLeaseIndexRepairIntent {Q : Post Nat} (hjobs : JobsOk s)
    (hT : T.Backed s) (h : Repairing limit target restoreComplete T s₀ s)
    (htgt : target.Exact T)
    (hC : ∀ t, Repairing limit target restoreComplete T s₀ t → C t)
    (hC' : ∀ t, Repaired T s₀ t → C t)
    (hQ : ∀ n t w, Repaired T s₀ t → Q n t w)
    (hE : ∀ err t w, Repairing limit target restoreComplete T s₀ t → E err t w) :
    wp (applyLeaseIndexRepairIntent limit target restoreComplete) C Q E s v := by
  unfold applyLeaseIndexRepairIntent
  refine wp_require_then (fun _ => ?_) fun _ => hE _ _ _ h
  rw [wp_bind]
  refine wp_canonicalLeaseCapacityRecords hjobs hT h.leases (fun records hrecs _ => ?_)
    fun err => hE err _ _ h
  rw [wp_bind, wp_ofExcept, htgt.valid.payload_ok]
  refine ⟨fun decoded hdec => ?_, nofun⟩
  obtain rfl := Except.ok.inj hdec
  refine wp_require_then (fun _ => ?_) fun _ => hE _ _ _ h
  rw [wp_bind]
  refine wp_clearLeaseOperationalIndexes h.moving (fun t ht => hC t (h.moved ht))
    (fun t ht => ?_) fun err => hE err _ _ h
  have ht' := h.moved ht
  have hjobs' : JobsOk t := hjobs.frame fun p hp => ht.agree p fun hp' =>
    hp'.not_jobFile hp
  have hT' : T.Backed t := hT.frame fun id => ht.agree _ (by simp [leaseFile])
  rw [wp_bind]
  refine wp_rebuildLeaseIndexes hT' hjobs' hrecs ht'.moving (fun u hu => hC u (ht'.moved hu))
    (fun u hu hfiles => ?_) fun err u hu => hE err u _ (ht'.moved hu)
  have hu' := ht'.moved hu
  -- The index files are in place; the rebuilt pair follows.
  have hpairing : ∀ y, Agree capacityFile u y →
      Repairing limit target restoreComplete T s₀ y := by
    intro y hy
    refine ⟨hu'.agree.trans (hy.mono fun p hp => .inr (.inl hp)), ?_,
      hu'.moving.frame hy fun p hp => hp.not_capacityFile⟩
    rw [hy _ (by simp [capacityFile]), hu'.intent]
  rw [wp_bind]
  refine wp_writeLeaseCapacityPair htgt.valid (fun y hy _ _ => hC y (hpairing y hy))
    fun y hy hpair => ?_
  have hy' := hpairing y hy
  unfold readIndexMigrationState
  simp only [read_eq_look, wp_bind, wp_look]
  rcases y.read .migrationState with _ | state
  · exact (wp_raise _).2 (hE _ _ _ hy')
  · simp only [wp_pure, wp_put, wp_unlink]
    generalize (if restoreComplete = true then
      (state.repaired target records.length).settle else state.repaired target records.length) = state'
    have hmigration : repairFile .migrationState := .inr (.inr (.inl rfl))
    have hintent : repairFile (.intent .leaseIndexRepair) := .inr (.inr (.inr rfl))
    have hz := hy'.agree.trans (agree_write hmigration y state')
    have hlease : ∀ p, leaseFile p → ∀ state',
        (y.write .migrationState state').read p = T.file p := by
      intro p hp state'
      rw [read_write_ne _ (by rintro rfl; exact hp), hy p hp.not_capacityFile, hfiles p hp]
    have hend : Repaired T s₀ ((y.write .migrationState state').unlink
        (.intent .leaseIndexRepair)) := by
      refine ⟨hz.trans (agree_unlink hintent _), read_unlink_self ..,
        fun p hp => ?_, target, ⟨?_, ?_⟩, htgt⟩
      · rw [read_unlink_ne (by rintro rfl; exact hp), hlease p hp]
      · rw [read_unlink_ne, read_write_ne _, hpair.1]
      · rw [read_unlink_ne, read_write_ne _, hpair.2]
    refine ⟨hC _ ⟨hz, ?_, ⟨fun p hp => .inr (hlease p hp state'), fun _ _ => False.elim⟩⟩,
      hC' _ hend, hQ _ _ _ hend⟩
    rw [read_write_ne _, hy'.intent]

variable [Entropy]

/-- **A repair from rest.** -/
theorem wp_repairLeaseIndexes {Q : Post Nat} (hjobs : JobsOk s)
    (hT : T.Backed s) (hrest : AtRest T s)
    (hC : ∀ target t, target.Exact T → Repairing limit target true T s t → C t)
    (hC' : ∀ t, Agree repairFile s t → t.read (.intent .leaseIndexRepair) = none →
      AtRest T t → C t)
    (hQ : ∀ n t w, Agree repairFile s t → t.read (.intent .leaseIndexRepair) = none →
      AtRest T t → Q n t w)
    (hE : ∀ err w, E err s w)
    (hE₁ : ∀ target err t w, target.Exact T → Repairing limit target true T s t → E err t w)
    (hE₂ : ∀ err t w, Repaired T s t → E err t w) :
    wp (repairLeaseIndexes limit) C Q E s v := by
  have hleases : ∀ id, s.read (.lease id) = (T.read id).map LiveLease.lease := fun id =>
    (hrest.files (.lease id) trivial).trans LeaseTable.file_lease
  unfold repairLeaseIndexes prepareLeaseCapacityRebuildIntent
  simp only [wp_bind]
  refine wp_canonicalLeaseCapacityRecords hjobs hT hleases (fun records _ hsmall => ?_)
    fun err => hE err _
  rw [wp_uuid4]
  refine wp_newLeaseCapacityPair hsmall rfl fun target w htgt => ?_
  simp only [writeTransitionIntent, TransitionIntent.key, wp_bind, wp_utcNow, wp_put, wp_pure]
  have hintent : repairFile (.intent .leaseIndexRepair) := .inr (.inr (.inr rfl))
  have hstart : Repairing limit target true T s
      (s.write (.intent .leaseIndexRepair) (.leaseIndexRepair limit target true)) := by
    refine ⟨agree_write hintent s _, read_write_self .., fun p hp => .inr ?_, fun _ _ => False.elim⟩
    rw [read_write_ne _ (by rintro rfl; exact hp), hrest.files p hp]
  refine ⟨hC target _ htgt hstart, ?_⟩
  have hjobs' : JobsOk (s.write (.intent .leaseIndexRepair) (.leaseIndexRepair limit target true)) :=
    hjobs.frame fun p hp => read_write_ne _ (by rintro rfl; exact hp)
  have hT' : T.Backed (s.write (.intent .leaseIndexRepair) (.leaseIndexRepair limit target true)) :=
    hT.frame fun id => read_write_ne _
  refine wp_applyLeaseIndexRepairIntent hjobs' hT' hstart htgt (fun t => hC target t htgt)
    (fun t ht => hC' t ht.agree ht.intent ht.atRest) (fun n t w ht => ?_)
    fun err t w => hE₁ target err t w htgt
  obtain ⟨pair, hholds, hexact⟩ := ht.atRest.pair
  refine wp_readLeaseCapacityAggregate hholds hexact ?_
  unfold readIndexMigrationState
  simp only [read_eq_look, wp_bind, wp_look]
  rcases t.read .migrationState with _ | state
  · exact (wp_raise _).2 (hE₂ _ _ _ ht)
  · simp only [wp_pure]
    generalize (state.repaired pair n).settle = state'
    have hmigration : repairFile .migrationState := .inr (.inr (.inl rfl))
    have hagree := ht.agree.trans (agree_write hmigration t state')
    have hnone : (t.write .migrationState state').read (.intent .leaseIndexRepair) = none := by
      rw [read_write_ne _, ht.intent]
    have hatRest : AtRest T (t.write .migrationState state') := by
      refine ⟨fun p hp => ?_, pair, ⟨?_, ?_⟩, hexact⟩
      · rw [read_write_ne _ (by rintro rfl; exact hp), ht.atRest.files p hp]
      · rw [read_write_ne _, hholds.1]
      · rw [read_write_ne _, hholds.2]
    exact ⟨hC' _ hagree hnone hatRest, hQ _ _ _ hagree hnone hatRest⟩

end

end ClioQueue
