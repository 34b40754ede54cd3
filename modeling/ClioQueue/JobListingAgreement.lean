/-
# The order of a job and its copies

Tasks, artifacts and progress records are kept twice for their job: a copy under
the record's name, which the listings read, and a copy under its position, which
the pages read up to the count.  `Agrees` says that the two are the same records,
and then the pages return what the listing returns (`Agrees.pages_perm`), however
the limits are chosen.
-/

import ClioQueue.Footprints
import ClioQueue.JobListings

namespace ClioQueue

open Durable Durable.Prog

/-! ### Families -/

/-- A family of records that a job keeps by name and by position. -/
structure JobFamily (α : Type) where
  copy : Store → DurableRecordId → DurableRecordId → Option α
  ordered : Store → DurableRecordId → Nat → Option α
  count : JobIndex → Nat
  identity : α → DurableRecordId
  position : α → Option Nat

/-- The tasks of a job. -/
def taskFamily : JobFamily RelayTask where
  copy s jobId taskId := s.read (.taskByJob jobId taskId)
  ordered s jobId sequence := s.read (.taskOrder jobId sequence)
  count := JobIndex.taskCount
  identity := RelayTask.taskId
  position := RelayTask.sequence

theorem taskFamily_copy (s : Store) (jobId taskId : DurableRecordId) :
    taskFamily.copy s jobId taskId = s.read (.taskByJob jobId taskId) := rfl

theorem taskFamily_ordered (s : Store) (jobId : DurableRecordId) (n : Nat) :
    taskFamily.ordered s jobId n = s.read (.taskOrder jobId n) := rfl

/-- The artifacts of a job. -/
def artifactFamily : JobFamily ArtifactRef where
  copy s jobId artifactId := s.read (.artifactByJob jobId artifactId)
  ordered s jobId sequence := s.read (.artifactOrder jobId sequence)
  count := JobIndex.artifactCount
  identity := ArtifactRef.artifactId
  position := ArtifactRef.sequence

/-- The progress records of a job. -/
def progressFamily : JobFamily ProgressRecord where
  copy s jobId progressId := s.read (.progressByJob jobId progressId)
  ordered s jobId sequence := s.read (.progressOrder jobId sequence)
  count := JobIndex.progressCount
  identity := ProgressRecord.progressId
  position := ProgressRecord.sequence

section

variable {α : Type} {K : JobFamily α} {s t : Store} {jobId : DurableRecordId}
  {limit : Int} {page : Int → Int → Op (Page α)} {cursor : Nat} {limits : Nat → Int}
  {f : Option DurableRecordId → (p : Path) → Content p → Option (DurableRecordId × α)}
  {found : Page α} {r : α}

/-- How many records a job counts. -/
def JobFamily.size (K : JobFamily α) (s : Store) (jobId : DurableRecordId) : Nat :=
  ((s.read (.jobIndex jobId)).map K.count).getD 0

/-- **The copies by name and the copies by position are the same records.** -/
structure Agrees (K : JobFamily α) (s : Store) (jobId : DurableRecordId) : Prop where
  copy : ∀ id r, K.copy s jobId id = some r → K.identity r = id ∧
    ∃ n, K.position r = some n ∧ 1 ≤ n ∧ n ≤ K.size s jobId ∧ K.ordered s jobId n = some r
  ordered : ∀ n, 1 ≤ n → n ≤ K.size s jobId → ∃ r, K.ordered s jobId n = some r ∧
    K.position r = some n ∧ K.copy s jobId (K.identity r) = some r

theorem Agrees.frame (h : Agrees K s jobId) (hcopy : ∀ id, K.copy t jobId id = K.copy s jobId id)
    (hord : ∀ n, K.ordered t jobId n = K.ordered s jobId n)
    (hsize : K.size t jobId = K.size s jobId) : Agrees K t jobId := by
  refine ⟨fun id r hr => ?_, fun n hpos hle => ?_⟩
  · rw [hcopy] at hr
    obtain ⟨hid, n, hn, hpos, hle, hread⟩ := h.copy id r hr
    exact ⟨hid, n, hn, hpos, hsize ▸ hle, (hord n).trans hread⟩
  · rw [hsize] at hle
    obtain ⟨r, hread, hn, hcopied⟩ := h.ordered n hpos hle
    exact ⟨r, (hord n).trans hread, hn, (hcopy _).trans hcopied⟩

/-- **A record is added** at the position after the last one. -/
theorem Agrees.extend (h : Agrees K s jobId) (hposition : K.position r = some (K.size s jobId + 1))
    (hfresh : K.copy s jobId (K.identity r) = none)
    (hcopy : ∀ id, id ≠ K.identity r → K.copy t jobId id = K.copy s jobId id)
    (hnew : K.copy t jobId (K.identity r) = some r)
    (hord : ∀ n, n ≠ K.size s jobId + 1 → K.ordered t jobId n = K.ordered s jobId n)
    (hlast : K.ordered t jobId (K.size s jobId + 1) = some r)
    (hsize : K.size t jobId = K.size s jobId + 1) : Agrees K t jobId := by
  refine ⟨fun id found hfound => ?_, fun n hpos hle => ?_⟩
  · by_cases heq : id = K.identity r
    · subst heq
      rw [hnew] at hfound
      cases hfound
      exact ⟨rfl, _, hposition, by omega, by omega, hlast⟩
    · rw [hcopy id heq] at hfound
      obtain ⟨hid, n, hn, hpos, hle, hread⟩ := h.copy id found hfound
      exact ⟨hid, n, hn, hpos, by omega, (hord n (by omega)).trans hread⟩
  · by_cases heq : n = K.size s jobId + 1
    · subst heq
      exact ⟨r, hlast, hposition, hnew⟩
    · obtain ⟨found, hread, hn, hcopied⟩ := h.ordered n hpos (by omega)
      refine ⟨found, (hord n heq).trans hread, hn, ?_⟩
      rw [hcopy _ ?_]
      · exact hcopied
      · intro hid
        rw [hid, hfresh] at hcopied
        cases hcopied

/-! ### The records of the order -/

/-- The records at the positions of a list. -/
def JobFamily.records (K : JobFamily α) (s : Store) (jobId : DurableRecordId) (ns : List Nat) :
    List α :=
  ns.filterMap (K.ordered s jobId)

/-- The positions of the records of the order. -/
theorem Agrees.positions (h : Agrees K s jobId) {first size : Nat} (hfirst : 1 ≤ first)
    (hlast : first + size ≤ K.size s jobId + 1) :
    (K.records s jobId (List.range' first size)).map K.position =
      (List.range' first size).map some := by
  induction size generalizing first with
  | zero => rfl
  | succ size ih =>
    obtain ⟨r, hread, hn, -⟩ := h.ordered first hfirst (by omega)
    have htail := @ih (first + 1) (by omega) (by omega)
    unfold JobFamily.records at htail ⊢
    rw [List.range'_succ, List.filterMap_cons, hread, List.map_cons, List.map_cons, hn, htail]

/-- A record is in the order exactly when it has a copy. -/
theorem Agrees.mem_records (h : Agrees K s jobId) :
    r ∈ K.records s jobId (List.range' 1 (K.size s jobId)) ↔
      ∃ id, K.copy s jobId id = some r := by
  unfold JobFamily.records
  rw [List.mem_filterMap]
  constructor
  · rintro ⟨n, hn, hread⟩
    rw [List.mem_range'_1] at hn
    obtain ⟨_, hfound, -, hcopied⟩ := h.ordered n hn.1 (by omega)
    rw [hread] at hfound
    cases hfound
    exact ⟨_, hcopied⟩
  · rintro ⟨id, hcopied⟩
    obtain ⟨-, n, -, hpos, _, hread⟩ := h.copy id r hcopied
    exact ⟨n, List.mem_range'_1.2 ⟨hpos, by omega⟩, hread⟩

theorem Agrees.nodup_records (h : Agrees K s jobId) :
    (K.records s jobId (List.range' 1 (K.size s jobId))).Nodup := by
  refine List.Nodup.of_map K.position ?_
  rw [h.positions le_rfl (by omega)]
  exact (List.nodup_range' ..).map (Option.some_injective _)

/-! ### Following the pages -/

/-- Follow the cursors of a listing from a cursor to the end, with any limits; each page starts
where the one before has left the store. -/
inductive JobPageWalk (page : Int → Int → Op (Page α)) (limits : Nat → Int) :
    Store → Nat → List α → Store → Prop
  | last {s : Store} {v : Supply} {cursor : Nat} {found : Page α}
      (read : ((page cursor (limits cursor)).run s v).result = .ok found)
      (hnext : found.nextCursor = none) :
      JobPageWalk page limits s cursor found.records ((page cursor (limits cursor)).run s v).store
  | more {s t : Store} {v : Supply} {cursor next : Nat} {found : Page α} {records : List α}
      (read : ((page cursor (limits cursor)).run s v).result = .ok found)
      (hnext : found.nextCursor = some next)
      (rest : JobPageWalk page limits ((page cursor (limits cursor)).run s v).store next records t) :
      JobPageWalk page limits s cursor (found.records ++ records) t

/-- A page of the order of a job. -/
structure PageOf (K : JobFamily α) (s : Store) (jobId : DurableRecordId) (cursor : Nat)
    (limit : Int) (found : Page α) : Prop where
  cursor_pos : 1 ≤ cursor
  limit_pos : 1 ≤ limit.toNat
  records : found.records = K.records s jobId (List.range' cursor
    (min (K.size s jobId + 1) (cursor + limit.toNat) - cursor))
  next : found.nextCursor = if cursor + limit.toNat ≤ K.size s jobId then
    some (cursor + limit.toNat) else none

theorem PageOf.last (h : PageOf K s jobId cursor limit found) (hnext : found.nextCursor = none) :
    found.records = K.records s jobId (List.range' cursor (K.size s jobId + 1 - cursor)) := by
  have hcut := h.next
  have hlim := h.limit_pos
  rw [hnext] at hcut
  split at hcut
  · cases hcut
  · have heq : min (K.size s jobId + 1) (cursor + limit.toNat) - cursor =
        K.size s jobId + 1 - cursor := by omega
    rw [h.records, heq]

/-- A page and what is left after it are the rest of the order. -/
theorem PageOf.append {next : Nat} (h : PageOf K s jobId cursor limit found)
    (hnext : found.nextCursor = some next) :
    cursor < next ∧ next ≤ K.size s jobId ∧
      found.records ++ K.records s jobId (List.range' next (K.size s jobId + 1 - next)) =
        K.records s jobId (List.range' cursor (K.size s jobId + 1 - cursor)) := by
  have hcut := h.next
  have hlim := h.limit_pos
  rw [hnext] at hcut
  split at hcut
  · next hle =>
      cases hcut
      refine ⟨by omega, hle, ?_⟩
      have heq : min (K.size s jobId + 1) (cursor + limit.toNat) - cursor = limit.toNat := by omega
      have hsplit : K.size s jobId + 1 - cursor =
          limit.toNat + (K.size s jobId + 1 - (cursor + limit.toNat)) := by omega
      rw [h.records, heq, hsplit, ← List.range'_append_1]
      exact (List.filterMap_append ..).symm
  · cases hcut

/-- A page program that reads the order of the job in the store `s` and leaves it as it is. -/
structure PagesAt (page : Int → Int → Op (Page α)) (K : JobFamily α) (s : Store)
    (jobId : DurableRecordId) : Prop where
  read : ∀ (cursor : Nat) (limit : Int) (v : Supply) (found : Page α),
    ((page cursor limit).run s v).result = .ok found →
      ((page cursor limit).run s v).store = s ∧ PageOf K s jobId cursor limit found
  returns : ∀ (cursor : Nat) (limit : Int) (v : Supply), 1 ≤ cursor → 1 ≤ limit →
    limit ≤ maxResponsePageRecords → ∃ found, ((page cursor limit).run s v).result = .ok found

/-- **Pages with any limits return the whole rest of the order.** -/
theorem JobPageWalk.records_eq {records : List α} (h : JobPageWalk page limits s cursor records t)
    (hpages : PagesAt page K s jobId) :
    t = s ∧ records = K.records s jobId (List.range' cursor (K.size s jobId + 1 - cursor)) := by
  induction h with
  | @last s v cursor found read hnext =>
    obtain ⟨hstore, hfound⟩ := hpages.read cursor _ v found read
    exact ⟨hstore, hfound.last hnext⟩
  | @more s t v cursor next found records read hnext rest ih =>
    obtain ⟨hstore, hfound⟩ := hpages.read cursor _ v found read
    rw [hstore] at ih
    obtain ⟨htail, hrest⟩ := ih hpages
    rw [hrest]
    exact ⟨htail, (hfound.append hnext).2.2⟩

/-- The pages can be followed to the end. -/
theorem PagesAt.walk (hpages : PagesAt page K s jobId)
    (hlimits : ∀ c, 1 ≤ limits c ∧ limits c ≤ maxResponsePageRecords) (v : Supply) :
    ∀ (left cursor : Nat), K.size s jobId + 1 - cursor ≤ left → 1 ≤ cursor →
      ∃ records, JobPageWalk page limits s cursor records s := by
  intro left
  induction left with
  | zero =>
    intro cursor hleft hcursor
    obtain ⟨found, hfound⟩ := hpages.returns cursor (limits cursor) v hcursor (hlimits _).1
      (hlimits _).2
    obtain ⟨hstore, hpage⟩ := hpages.read _ _ _ _ hfound
    have hlast : found.nextCursor = none := by
      have hlim := hpage.limit_pos
      rw [hpage.next, if_neg (by omega)]
    have hwalk := JobPageWalk.last hfound hlast
    rw [hstore] at hwalk
    exact ⟨_, hwalk⟩
  | succ left ih =>
    intro cursor hleft hcursor
    obtain ⟨found, hfound⟩ := hpages.returns cursor (limits cursor) v hcursor (hlimits _).1
      (hlimits _).2
    obtain ⟨hstore, hpage⟩ := hpages.read _ _ _ _ hfound
    rcases hnext : found.nextCursor with _ | next
    · have hwalk := JobPageWalk.last hfound hnext
      rw [hstore] at hwalk
      exact ⟨_, hwalk⟩
    · obtain ⟨_, -, -⟩ := hpage.append hnext
      obtain ⟨records, hrest⟩ := ih next (by omega) (by omega)
      have hrest' : JobPageWalk page limits ((page cursor (limits cursor)).run s v).store next
          records s := by
        rw [hstore]
        exact hrest
      exact ⟨_, JobPageWalk.more hfound hnext hrest'⟩

section

variable {C : Store → Prop} {E : Post RelayError} {v : Supply}

theorem Agrees.wp_readOrderedJobRecords {Q : Post (List α)}
    (h : Agrees K s jobId) (family : String) {ns : List Nat}
    (hns : ∀ n ∈ ns, 1 ≤ n ∧ n ≤ K.size s jobId) (hQ : Q (K.records s jobId ns) s v) :
    wp (readOrderedJobRecords (fun n => look fun s => K.ordered s jobId n) family jobId ns)
      C Q E s v := by
  induction ns generalizing Q with
  | nil => exact (wp_pure _).2 hQ
  | cons n ns ih =>
    obtain ⟨hpos, hle⟩ := hns n (.head _)
    obtain ⟨r, hread, -⟩ := h.ordered n hpos hle
    rw [readOrderedJobRecords, wp_bind, wp_look, hread, wp_bind]
    refine ih (fun m hm => hns m (.tail _ hm)) ((wp_pure _).2 ?_)
    unfold JobFamily.records at hQ ⊢
    rwa [List.filterMap_cons, hread] at hQ

/-- **A page of a job whose copies agree.** -/
theorem Agrees.wp_readOrderedJobPage {Q : Post (Page α)} (h : Agrees K s jobId)
    (family : String) {cursor : Nat} {limit : Int}
    (hQ : 1 ≤ cursor → 1 ≤ limit → limit ≤ maxResponsePageRecords → Q
      { records := K.records s jobId (List.range' cursor
          (min (K.size s jobId + 1) (cursor + limit.toNat) - cursor))
        nextCursor := if cursor + limit.toNat ≤ K.size s jobId then some (cursor + limit.toNat)
          else none
        total := K.size s jobId } s v)
    (hE : ∀ err, ¬ (1 ≤ cursor ∧ 1 ≤ limit ∧ limit ≤ maxResponsePageRecords ∧
      (∃ state, s.read .migrationState = some state ∧ state.complete = true) ∧
      (s.read (.jobIndex jobId)).isSome) → E err s v) :
    wp (readOrderedJobPage (fun n => look fun s => K.ordered s jobId n) family K.count
      jobId cursor limit) C Q E s v := by
  unfold readOrderedJobPage
  rw [wp_bind, wp_ofExcept]
  unfold validateRecordCursor validateResponsePageLimit
  refine ⟨fun start hstart => ?_, fun err herr => hE _ ?_⟩
  swap
  · rintro ⟨_, -⟩
    rw [if_neg (by omega)] at herr
    cases herr
  split at hstart
  · cases hstart
  cases hstart
  rw [Int.toNat_natCast]
  refine wp_ofExcept_then (fun size hsize => ?_) fun err herr => hE _ ?_
  swap
  · rintro ⟨-, _, _, -⟩
    rw [if_neg (by omega)] at herr
    cases herr
  split at hsize
  · cases hsize
  cases hsize
  have hval := hQ (by omega) (by omega) (by omega)
  unfold requireIndexMigrationComplete readIndexMigrationState
  rw [wp_bind, wp_bind, wp_bind, read_eq_look, wp_look]
  rcases hst : s.read .migrationState with _ | state
  · refine (wp_raise _).2 (hE _ ?_)
    rintro ⟨-, -, -, ⟨state, hread, -⟩, -⟩
    rw [hst] at hread
    cases hread
  refine (wp_pure _).2 ?_
  rw [wp_require]
  refine ⟨fun hcomp => ?_, fun hcomp => hE _ ?_⟩
  swap
  · rintro ⟨-, -, -, ⟨state, hread, htrue⟩, -⟩
    rw [hst] at hread
    cases hread
    rw [htrue] at hcomp
    cases hcomp
  rw [wp_bind, read_eq_look, wp_look]
  rcases hidx : s.read (.jobIndex jobId) with _ | index
  · refine (wp_raise _).2 (hE _ ?_)
    rintro ⟨-, -, -, -, hsome⟩
    rw [hidx] at hsome
    cases hsome
  have hcnt : K.count index = K.size s jobId := by
    unfold JobFamily.size
    rw [hidx]
    rfl
  simp only [hcnt]
  generalize hlat : K.size s jobId = latest at hval ⊢
  refine wp_cases (fun hlt => (wp_pure _).2 ?_) fun hge => ?_
  · have hempty : min (latest + 1) (cursor + limit.toNat) - cursor = 0 := by omega
    rw [hempty, if_neg (by omega)] at hval
    exact hval
  · rw [wp_bind]
    refine h.wp_readOrderedJobRecords family (fun n hn => ?_) ((wp_pure _).2 ?_)
    · rw [List.mem_range'_1] at hn
      omega
    · by_cases hnext : cursor + limit.toNat ≤ latest
      · have hmin : min (latest + 1) (cursor + limit.toNat) = cursor + limit.toNat := by omega
        rw [hmin, if_pos hnext] at hval ⊢
        exact hval
      · have hmin : min (latest + 1) (cursor + limit.toNat) = latest + 1 := by omega
        rw [hmin, if_neg hnext] at hval
        rw [hmin, if_neg (by omega)]
        exact hval

end

theorem Agrees.pagesAt (h : Agrees K s jobId) (family : String)
    (hst : ∃ state, s.read .migrationState = some state ∧ state.complete = true)
    (hidx : (s.read (.jobIndex jobId)).isSome) :
    PagesAt (readOrderedJobPage (fun n => look fun s => K.ordered s jobId n) family K.count
      jobId) K s jobId := by
  refine ⟨fun cursor limit v found hfound => ?_, fun cursor limit v hcursor hlim hbd => ?_⟩
  · have hpage := h.wp_readOrderedJobPage (C := fun _ => True) (E := fun _ _ _ => True)
      (Q := fun page t _ => t = s ∧ PageOf K s jobId cursor limit page) (v := v) family
      (fun hcursor hlim _ => ⟨rfl, hcursor, by omega, rfl, rfl⟩) fun _ _ => trivial
    have hres := hpage.2
    rw [hfound] at hres
    exact hres
  · have hpage : wp (readOrderedJobPage (fun n => look fun s => K.ordered s jobId n) family
        K.count jobId cursor limit) (fun _ => True) (fun _ _ _ => True) (fun _ _ _ => False) s v :=
      h.wp_readOrderedJobPage family (fun _ _ _ => trivial) fun _ hbad =>
        hbad ⟨hcursor, hlim, hbd, hst, hidx⟩
    exact wp_ok hpage

/-! ### Listings -/

/-- What a listing by job finds are the copies of the job. -/
def ListsCopies (f : Option DurableRecordId → (p : Path) → Content p → Option (DurableRecordId × α))
    (K : JobFamily α) : Prop :=
  ∀ (s : Store) (jobId : DurableRecordId), (s.collect (f (some jobId))).Nodup ∧
    ∀ x, x ∈ s.collect (f (some jobId)) ↔ K.copy s jobId x.1 = some x.2

/-- **The listing of an indexed job** is the order, in some order. -/
theorem Agrees.wp_readJobRecords {C : Store → Prop} {E : Post RelayError}
    {Q : Post (List α)} {v : Supply} (h : Agrees K s jobId) (hf : ListsCopies f K)
    (owner : α → DurableRecordId) (hidx : (s.read (.jobIndex jobId)).isSome)
    (hQ : ∀ records, records.Perm (K.records s jobId (List.range' 1 (K.size s jobId))) → Q records s v)
    (hE : ∀ err, E err s v) : wp (readJobRecords f K.identity owner jobId) C Q E s v := by
  obtain ⟨hnd, hmem⟩ := hf s jobId
  unfold readJobRecords readMany
  rw [wp_bind, wp_present, if_pos hidx, wp_bind, wp_listing, wp_bind, wp_require]
  refine ⟨fun _ => ?_, fun _ => hE _⟩
  refine wp_require_then (fun _ => (wp_pure _).2 (hQ _ ?_)) fun _ => hE _
  have hdist : ((s.collect (f (some jobId))).map Prod.snd).Nodup := by
    refine hnd.map_on fun x hx y hy hxy => ?_
    have hx' := (h.copy _ _ ((hmem x).1 hx)).1
    have hy' := (h.copy _ _ ((hmem y).1 hy)).1
    exact Prod.ext (by rw [← hx', ← hy', hxy]) hxy
  refine (List.perm_ext_iff_of_nodup hdist h.nodup_records).2 fun r => ?_
  rw [List.mem_map, h.mem_records]
  constructor
  · rintro ⟨x, hx, rfl⟩
    exact ⟨x.1, (hmem x).1 hx⟩
  · rintro ⟨id, hcopied⟩
    exact ⟨(id, r), (hmem (id, r)).2 hcopied, rfl⟩

/-- A listing that finds each record at its own path. -/
theorem ListsCopies.of_paths (path : DurableRecordId → DurableRecordId → Path)
    (hpath : ∀ jobId p c x, f (some jobId) p c = some x → p = path jobId x.1)
    (hcopy : ∀ (s : Store) jobId id r, (∃ c, s.read (path jobId id) = some c ∧ f (some jobId) (path jobId id) c = some (id, r)) ↔ K.copy s jobId id = some r) :
    ListsCopies f K := by
  intro s jobId
  refine ⟨Files.nodup_collect fun p c q d x _ _ hx hy => ?_, fun x => ?_⟩
  · rw [hpath jobId p c x hx, hpath jobId q d x hy]
  · rw [Files.mem_collect, ← hcopy]
    constructor
    · rintro ⟨p, c, hread, hlist⟩
      obtain rfl := hpath jobId p c x hlist
      exact ⟨c, hread, hlist⟩
    · rintro ⟨c, hread, hlist⟩
      exact ⟨_, c, hread, hlist⟩

theorem tasksListed_copies : ListsCopies tasksListed taskFamily := by
  refine .of_paths Path.taskByJob (fun jobId p c x hx => ?_) fun s jobId id r => ?_
  · cases p <;> simp only [tasksListed, reduceCtorEq, Option.ite_none_right_eq_some] at hx
    obtain ⟨rfl, hx⟩ := hx
    cases hx
    rfl
  · simp [tasksListed, taskFamily]

theorem artifactsListed_copies : ListsCopies artifactsListed artifactFamily := by
  refine .of_paths Path.artifactByJob (fun jobId p c x hx => ?_) fun s jobId id r => ?_
  · cases p <;> simp only [artifactsListed, reduceCtorEq, Option.ite_none_right_eq_some] at hx
    obtain ⟨rfl, hx⟩ := hx
    cases hx
    rfl
  · simp [artifactsListed, artifactFamily]

theorem progressListed_copies : ListsCopies progressListed progressFamily := by
  refine .of_paths Path.progressByJob (fun jobId p c x hx => ?_) fun s jobId id r => ?_
  · cases p <;> simp only [progressListed, reduceCtorEq, Option.ite_none_right_eq_some] at hx
    obtain ⟨rfl, hx⟩ := hx
    cases hx
    rfl
  · simp [progressListed, progressFamily]

end

end ClioQueue
