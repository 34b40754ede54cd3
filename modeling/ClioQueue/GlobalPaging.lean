/-
# Paging a global order while it grows

A page is the records of a window of positions: an entry that is found never
changes and its mapping was written before it, so no read of a page can raise.
Following the cursors over a growing order passes every position once, in order,
and a record that is there the whole time is found at its position.
-/

import ClioQueue.GlobalOrder

namespace ClioQueue

open Durable Durable.Prog

/-! ### The reads of a page -/

/-- A computation that goes on from a value. -/
theorem except_ok_bind {α β : Type} (a : α) (f : α → Except RelayError β) :
    (Except.ok a >>= f) = f a := rfl

/-- A program that must return a value, looked at. -/
theorem peek_eq {α : Type} {m : Op α} {s : Store} {a : α}
    (h : ∀ v, wp m (fun _ => True) (fun b _ _ => b = a) (fun _ _ _ => False) s v) :
    peek m s = .ok a := by
  have hm := (h ⟨0, 0⟩).2
  unfold peek
  rcases hr : (m.run s ⟨0, 0⟩).result with e | b
  · rw [hr] at hm
    exact hm.elim
  · rw [hr] at hm
    rw [hm]

section

variable {α : Type} {F : OrderedFamily α} {s t u : Store} {view : View}

theorem OrderedBy.peek_head {family : GlobalFamily} (hs : OrderedBy family s) :
    peek (readGlobalHead family) s = .ok (headOf family s) :=
  peek_eq fun _ => wp_readGlobalHead hs rfl

theorem OrderedBy.peek_entry {family : GlobalFamily} (hs : OrderedBy family s) (n : Nat) :
    peek (read (.globalEntry family n) >>= readGlobalRecord) s =
      .ok (s.read (.globalEntry family n)) := by
  refine peek_eq fun v => ?_
  rw [wp_bind, read_eq_look, wp_look]
  exact wp_readGlobalRecord (fun r hr => hs.entry_valid hr) rfl

theorem OrderedBy.peek_mapping {family : GlobalFamily} (hs : OrderedBy family s)
    (id : DurableRecordId) :
    peek (read (.globalById family id) >>= readGlobalRecord) s =
      .ok (s.read (.globalById family id)) := by
  refine peek_eq fun v => ?_
  rw [wp_bind, read_eq_look, wp_look]
  exact wp_readGlobalRecord (fun r hr => hs.valid hr) rfl

theorem OrderOk.peek_migration (hs : OrderOk s) :
    peek requireIndexMigrationComplete s = .ok () := by
  obtain ⟨_, hread, hcomp⟩ := hs.migration
  refine peek_eq fun v => ?_
  unfold requireIndexMigrationComplete readIndexMigrationState
  rw [wp_bind, wp_bind, read_eq_look, wp_look, hread]
  refine (wp_pure _).2 ?_
  rw [wp_require, hcomp]
  exact ⟨fun _ => rfl, nofun⟩

/-- What a page needs of the stores that it sees: each has its orders, and what an entry names is
mapped when its mapping is read. -/
structure Sighted (F : OrderedFamily α) (view : View) : Prop where
  ok : ∀ r, OrderOk (view r)
  filed : ∀ r, Filed F (view r)
  grows : ∀ r r', PageRead.rank r ≤ PageRead.rank r' → OrderGrows F.family (view r) (view r')

/-- The record at a position. -/
def OrderedFamily.at (F : OrderedFamily α) (view : View) (n : Nat) : Option α :=
  ((view (.entry n)).read (.globalEntry F.family n)).bind fun entry =>
    F.find (view (.record n)) entry.recordId

/-- Reading a position finds the record that has it, or a burnt position. -/
theorem Sighted.readGlobalPosition_eq (h : Sighted F view) (n : Nat) :
    readGlobalPosition F view n = .ok (F.at view n) := by
  unfold readGlobalPosition OrderedFamily.at
  rw [((h.ok _).ordered F.family).peek_entry, except_ok_bind]
  rcases hent : (view (.entry n)).read (.globalEntry F.family n) with _ | entry
  · rfl
  obtain ⟨hn, hmapped⟩ := ((h.ok _).ordered F.family).entry n entry hent
  have hmap := (h.grows (.entry n) (.mapping n) (by simp [PageRead.rank])).mapping _ _ hmapped
  simp only [hn, ne_eq, not_true_eq_false, if_false]
  rw [((h.ok _).ordered F.family).peek_mapping, hmap, except_ok_bind]
  simp only [not_true_eq_false, if_false, Option.bind_some]
  rcases hrec : F.find (view (.record n)) entry.recordId with _ | record
  · rfl
  · simp only [(h.filed _ _ _ hrec).1, not_true_eq_false, if_false]
    rfl

theorem Sighted.readGlobalPositions_eq (h : Sighted F view) (predicate : α → Bool) (ns : List Nat) :
    readGlobalPositions F view predicate ns =
      .ok (ns.filterMap fun n => (F.at view n).filter predicate) := by
  induction ns with
  | nil => rfl
  | cons n ns ih =>
    rw [readGlobalPositions, h.readGlobalPosition_eq, except_ok_bind, ih, except_ok_bind,
      List.filterMap_cons]
    rcases (F.at view n).filter predicate with _ | _
    · rfl
    · rfl

/-- **A page is the records of its window.** -/
theorem Sighted.readGlobalOrderPage_eq (h : Sighted F view) {cursor limit : Nat}
    (predicate : α → Bool) (hcursor : 1 ≤ cursor) (hlim : 1 ≤ limit)
    (hbd : limit ≤ maxResponsePageRecords) :
    readGlobalOrderPage F view cursor limit predicate = .ok
      { records := (List.range' cursor
          (min (headOf F.family (view .head) + 1) (cursor + limit) - cursor)).filterMap
            fun n => (F.at view n).filter predicate
        nextCursor := if cursor + limit ≤ headOf F.family (view .head) then some (cursor + limit)
          else none
        total := headOf F.family (view .head) } := by
  unfold readGlobalOrderPage validateRecordCursor validateResponsePageLimit
  rw [if_neg (by omega), if_neg (by omega), (h.ok _).peek_migration,
    ((h.ok _).ordered F.family).peek_head]
  simp only [except_ok_bind, Int.toNat_natCast, h.readGlobalPositions_eq]
  generalize headOf F.family (view .head) = latest
  by_cases hlt : latest < cursor
  · have hnone : ¬ cursor + limit ≤ latest := by omega
    have hempty : min (latest + 1) (cursor + limit) - cursor = 0 := by omega
    rw [if_pos hlt, if_neg hnone, hempty]
    rfl
  · rw [if_neg hlt]
    by_cases hnext : cursor + limit ≤ latest
    · have hmin : min (latest + 1) (cursor + limit) = cursor + limit := by omega
      rw [hmin, if_pos hnext]
      rfl
    · have hmin : min (latest + 1) (cursor + limit) = latest + 1 := by omega
      rw [hmin, if_neg hnext, if_neg (by omega)]
      rfl

end

/-! ### Following the cursors -/

section

variable [Platform] {α : Type} {F : OrderedFamily α} {predicate : α → Bool} {s t u : Store}
  {view : View} {id : DurableRecordId} {limit : Int} {views : List View} {records : List α}
  {cursor n : Nat} {found last : Page α} {still : Store}

/-- A page is read between `s` and `t`, while the queue runs on. -/
structure Viewed (s : Store) (view : View) (t : Store) : Prop where
  start : ∀ r, OrderCall.Run s (view r)
  reads : ∀ r r', PageRead.rank r ≤ PageRead.rank r' → OrderCall.Run (view r) (view r')
  finish : ∀ r, OrderCall.Run (view r) t

/-- The records are in their order in every store that has its orders. -/
def OrderedFamily.Kept (F : OrderedFamily α) : Prop := ∀ s, OrderOk s → Filed F s

omit [Platform] in
theorem orderedJobs_kept : orderedJobs.Kept := fun _ hs => hs.jobs

omit [Platform] in
theorem orderedGatewaySessions_kept : orderedGatewaySessions.Kept := fun _ hs => hs.sessions

theorem Viewed.sighted (h : Viewed s view t) (hF : F.Kept) (hs : OrderOk s) : Sighted F view :=
  have hok : ∀ r, OrderOk (view r) := fun r => ((h.start r).orderedFrom hs).1
  ⟨hok, fun r => hF _ (hok r), fun r r' hr => ((h.reads r r' hr).orderedFrom (hok r)).2 _⟩

theorem Viewed.orderedFrom (h : Viewed s view t) (hs : OrderOk s) (r : PageRead) :
    OrderedFrom (view r) t :=
  (h.finish r).orderedFrom ((h.start r).orderedFrom hs).1

theorem Viewed.after (h : Viewed s view t) (hs : OrderOk s) : OrderedFrom s t :=
  OrderCall.Run.orderedFrom hs ((h.start .head).trans (h.finish .head))

/-- **Following `next_cursor`** from a cursor, with any limits: the pages read through `views`
return `records` between them, and `last` is the last of them. -/
inductive PageWalk (F : OrderedFamily α) (predicate : α → Bool) :
    Store → Nat → List View → List α → Page α → Store → Prop
  | page {s t : Store} {view : View} {cursor : Nat} {limit : Int} {found : Page α}
      (viewed : Viewed s view t)
      (read : readGlobalOrderPage F view cursor limit predicate = .ok found) :
      PageWalk F predicate s cursor [view] found.records found t
  | more {s t u : Store} {view : View} {cursor next : Nat} {limit : Int} {found last : Page α}
      {views : List View} {records : List α} (viewed : Viewed s view t)
      (read : readGlobalOrderPage F view cursor limit predicate = .ok found)
      (hnext : found.nextCursor = some next)
      (rest : PageWalk F predicate t next views records last u) :
      PageWalk F predicate s cursor (view :: views) (found.records ++ records) last u

/-- The sequence of a record. -/
def OrderedFamily.sequenceOf (F : OrderedFamily α) (t : Store) (record : α) : Nat :=
  ((t.read (.globalById F.family (F.identity record))).map GlobalOrderRecord.sequence).getD 0

section

omit [Platform]

/-- A page holds what the predicate keeps of the positions from its cursor on, and its next cursor
is there exactly if the head is beyond them. -/
theorem Sighted.page_eq (h : Sighted F view)
    (hread : readGlobalOrderPage F view cursor limit predicate = .ok found) :
    1 ≤ cursor ∧ 1 ≤ limit.toNat ∧ found.total = headOf F.family (view .head) ∧
      found.records = (List.range' cursor
        (min (headOf F.family (view .head) + 1) (cursor + limit.toNat) - cursor)).filterMap
          (fun n => (F.at view n).filter predicate) ∧
      found.nextCursor = if cursor + limit.toNat ≤ headOf F.family (view .head) then
        some (cursor + limit.toNat) else none := by
  obtain ⟨_, _, _, -⟩ := readGlobalOrderPage_ok hread
  have heq := @Sighted.readGlobalOrderPage_eq _ _ _ h cursor limit.toNat predicate (by omega)
    (by omega) (by omega)
  rw [Int.toNat_of_nonneg (by omega), hread] at heq
  cases heq
  exact ⟨by omega, by omega, rfl, rfl, rfl⟩

/-- The record at a position has that sequence, from then on. -/
theorem Sighted.sequenceOf_at (h : Sighted F view) {record : α}
    (hrec : F.at view n = some record) (ht : OrderGrows F.family (view (.record n)) t) :
    F.sequenceOf t record = n := by
  obtain ⟨entry, hent, hfind⟩ := Option.bind_eq_some_iff.1 hrec
  obtain ⟨hn, hmapped⟩ := ((h.ok _).ordered F.family).entry n entry hent
  have hgrow := (h.grows (.entry n) (.record n) (by simp [PageRead.rank])).trans ht
  unfold OrderedFamily.sequenceOf
  rw [(h.filed _ _ _ hfind).1, hgrow.mapping _ _ hmapped]
  exact hn

/-- The sequences of the records of a window are among its positions. -/
theorem Sighted.sequences_sublist (h : Sighted F view)
    (ht : ∀ r, OrderGrows F.family (view r) t) (ns : List Nat) :
    ((ns.filterMap fun n => (F.at view n).filter predicate).map (F.sequenceOf t)).Sublist ns := by
  induction ns with
  | nil => exact .slnil
  | cons n ns ih =>
    rcases hfound : (F.at view n).filter predicate with _ | _
    · rw [List.filterMap_cons, hfound]
      exact ih.cons n
    · rw [List.filterMap_cons, hfound, List.map_cons]
      obtain ⟨hrec, -⟩ := Option.filter_eq_some_iff.1 hfound
      rw [h.sequenceOf_at hrec (ht _)]
      exact ih.cons_cons n

end

/-- **A walk returns records in the order of their sequences**, none below its cursor. -/
theorem PageWalk.sequences (hF : F.Kept) (h : PageWalk F predicate s cursor views records last u)
    (hs : OrderOk s) :
    OrderedFrom s u ∧
      ∃ size, (records.map (F.sequenceOf u)).Sublist (List.range' cursor size) := by
  induction h with
  | page viewed read =>
    have hsight := viewed.sighted hF hs
    obtain ⟨-, -, -, hrecs, -⟩ := hsight.page_eq read
    rw [hrecs]
    exact ⟨viewed.after hs, _, hsight.sequences_sublist (fun r => (viewed.orderedFrom hs r).2 _) _⟩
  | @more s t u view cursor next limit found last views records viewed read hnext rest ih =>
    have hsight := viewed.sighted hF hs
    have hmid := viewed.after hs
    obtain ⟨hend, size, hrest⟩ := ih hmid.1
    refine ⟨⟨hend.1, hmid.2.trans hend.2⟩, limit.toNat + size, ?_⟩
    obtain ⟨-, -, -, hrecs, hcursor⟩ := hsight.page_eq read
    rw [hnext] at hcursor
    split at hcursor
    · next hle =>
        cases hcursor
        have hwin : min (headOf F.family (view .head) + 1) (cursor + limit.toNat) - cursor =
            limit.toNat := by omega
        rw [hwin] at hrecs
        rw [List.map_append, hrecs, ← List.range'_append_1]
        refine List.Sublist.append ?_ hrest
        exact hsight.sequences_sublist (fun r => ((viewed.orderedFrom hs r).2 _).trans (hend.2 _)) _
    · cases hcursor

/-- A record that is there during a page is found, or the page names a next cursor not beyond
its position. -/
theorem Viewed.found_or_next (h : Viewed s view t) (hF : F.Kept) (hs : OrderOk s)
    (htu : OrderGrows F.family t u)
    (hread : readGlobalOrderPage F view cursor limit predicate = .ok found)
    (hthere : ∀ r, ∃ record, F.find (view r) id = some record ∧ predicate record = true)
    (hn : u.read (.globalById F.family id) = some ⟨id, n⟩) (hcursor : cursor ≤ n) :
    id ∈ found.records.map F.identity ∨ ∃ next, found.nextCursor = some next ∧ next ≤ n := by
  have hsight := h.sighted hF hs
  obtain ⟨-, -, -, hrecs, hnext⟩ := hsight.page_eq hread
  obtain ⟨record, hfind, -⟩ := hthere .head
  obtain ⟨-, m, hmapped, henter⟩ := hsight.filed _ _ _ hfind
  have hsame := (((h.orderedFrom hs .head).2 _).trans htu).mapping _ _ hmapped
  rw [hn] at hsame
  cases hsame
  have hle : n ≤ headOf F.family (view .head) :=
    ((hsight.ok .head).ordered F.family).entry_le henter
  by_cases hwin : n < cursor + limit.toNat
  · left
    obtain ⟨found', hfound, hmatch⟩ := hthere (.record n)
    have hrank : PageRead.head.rank ≤ (PageRead.entry n).rank := by
      show 1 ≤ 3 * n + 2
      omega
    have hent := (hsight.grows _ _ hrank).entry _ _ henter
    have hat : (F.at view n).filter predicate = some found' := by
      unfold OrderedFamily.at
      rw [hent, Option.bind_some, hfound, Option.filter_some, if_pos hmatch]
    rw [hrecs]
    refine List.mem_map.2 ⟨found', List.mem_filterMap.2 ⟨n, ?_, hat⟩, (hsight.filed _ _ _ hfound).1⟩
    rw [List.mem_range'_1]
    omega
  · right
    refine ⟨cursor + limit.toNat, ?_, by omega⟩
    rw [hnext, if_pos (by omega)]

section

variable (hF : F.Kept) (h : PageWalk F predicate s cursor views records last u) (hs : OrderOk s)
  (hthere : ∀ view ∈ views, ∀ r, ∃ record,
    F.find (view r) id = some record ∧ predicate record = true)

include hF h hs hthere

/-- **A walk misses nothing** that is there at every page. -/
theorem PageWalk.complete
    (hn : u.read (.globalById F.family id) = some ⟨id, n⟩) (hcursor : cursor ≤ n)
    (hlast : ∀ next, last.nextCursor = some next → n < next) : id ∈ records.map F.identity := by
  induction h with
  | page viewed read =>
    rcases viewed.found_or_next hF hs (.refl _ _) read (hthere _ (.head _)) hn
      hcursor with hmem | ⟨next, hnext, hle⟩
    · exact hmem
    · have hlt := hlast next hnext
      omega
  | more viewed read hnext rest ih =>
    have hmid := viewed.after hs
    have hgrow := (rest.sequences hF hmid.1).1.2 F.family
    rw [List.map_append, List.mem_append]
    rcases viewed.found_or_next hF hs hgrow read (hthere _ (.head _)) hn hcursor with
      hmem | ⟨next, hnext', hle⟩
    · exact .inl hmem
    · rw [hnext] at hnext'
      cases hnext'
      exact .inr (ih hmid.1 (fun view hview => hthere view (.tail _ hview)) hn hle hlast)

/-- A record that is there at every page has its sequence in the end. -/
theorem PageWalk.mapped :
    ∃ n, u.read (.globalById F.family id) = some ⟨id, n⟩ ∧ 1 ≤ n := by
  have hend := (h.sequences hF hs).1.1
  have hfirst : ∃ view ∈ views, OrderOk (view .head) ∧ OrderGrows F.family (view .head) u := by
    rcases h with ⟨viewed, read⟩ | ⟨viewed, read, _, rest⟩
    · exact ⟨_, .head _, (viewed.sighted hF hs).ok _, (viewed.orderedFrom hs _).2 _⟩
    · have hrest := rest.sequences hF (viewed.after hs).1
      exact ⟨_, .head _, (viewed.sighted hF hs).ok _,
        ((viewed.orderedFrom hs _).2 _).trans (hrest.1.2 _)⟩
  obtain ⟨view, hview, hok, hgrow⟩ := hfirst
  obtain ⟨_, hfind, -⟩ := hthere view hview .head
  obtain ⟨-, n, hmapped, -⟩ := hF _ hok _ _ hfind
  have hn := hgrow.mapping _ _ hmapped
  exact ⟨n, hn, ((hend.ordered F.family).mapping _ _ hn).2.1⟩

end

/-- **Following the cursors from the first to the last page**: records come in the order of their
sequences, and one that is there at every page comes exactly once. -/
theorem PageWalk.exactly_once (hF : F.Kept) (h : PageWalk F predicate s 1 views records last u)
    (hs : OrderOk s) :
    (records.map (F.sequenceOf u)).Pairwise (· < ·) ∧
      ∀ id, (∀ view ∈ views, ∀ r, ∃ record, F.find (view r) id = some record ∧
          predicate record = true) →
        (∀ next, last.nextCursor = some next → ∀ r, u.read (.globalById F.family id) = some r →
          r.sequence < next) → (records.map F.identity).count id = 1 := by
  obtain ⟨_, _, hsub⟩ := h.sequences hF hs
  have hsort : (records.map (F.sequenceOf u)).Pairwise (· < ·) :=
    (List.pairwise_lt_range' ..).sublist hsub
  refine ⟨hsort, fun id hthere hlast => ?_⟩
  have hnd : (records.map F.identity).Nodup := by
    have hseq : (records.map F.identity).map (fun id =>
        ((u.read (.globalById F.family id)).map GlobalOrderRecord.sequence).getD 0) =
          records.map (F.sequenceOf u) := by
      rw [List.map_map]
      rfl
    refine List.Nodup.of_map (fun id =>
        ((u.read (.globalById F.family id)).map GlobalOrderRecord.sequence).getD 0) ?_
    rw [hseq]
    exact hsort.imp fun h => Nat.ne_of_lt h
  obtain ⟨n, hn, hpos⟩ := h.mapped hF hs hthere
  have hmem := h.complete hF hs hthere hn hpos fun next hnext => hlast next hnext _ hn
  exact List.count_eq_one_of_mem hnd hmem

/-! ### Scans -/

/-- **A scan is a walk over the positions that it is given.**  It says that more exists exactly
when the head that its last page has seen is beyond them. -/
theorem scanJobsFrom_walk {stores : Nat → Store} {views : Nat → View}
    (hviews : ∀ k, Viewed (stores k) (views k) (stores (k + 1))) (hok : OrderOk (stores 0)) :
    ∀ (remaining page cursor : Nat), 1 ≤ remaining → 1 ≤ cursor →
      ∃ jobs last pages, scanJobsFrom views page cursor remaining =
          .ok (jobs, decide (cursor + remaining ≤ last.total)) ∧
        PageWalk orderedJobs ({} : JobFilter).matches (stores page) cursor
          ((List.range' page pages).map views) jobs last (stores (page + pages)) ∧
        last.nextCursor = if cursor + remaining ≤ last.total then some (cursor + remaining)
          else none := by
  have hstores : ∀ k, OrderOk (stores k) := by
    intro k
    induction k with
    | zero => exact hok
    | succ k ih => exact ((hviews k).after ih).1
  intro remaining
  induction remaining using Nat.strong_induction_on with
  | _ remaining ih =>
    intro page cursor _ hcursor
    have hsight := (hviews page).sighted orderedJobs_kept (hstores page)
    have hread := @Sighted.readGlobalOrderPage_eq _ _ _ hsight cursor
      (min maxResponsePageRecords remaining) ({} : JobFilter).matches hcursor
      (by unfold maxResponsePageRecords; omega) (by omega)
    rw [scanJobsFrom, if_neg (by omega)]
    unfold listJobsPage
    simp only
    rw [hread, except_ok_bind]
    generalize headOf orderedJobs.family (views page .head) = latest at hread ⊢
    by_cases hnext : cursor + min maxResponsePageRecords remaining ≤ latest
    · simp only [if_pos hnext] at hread ⊢
      by_cases hlast : remaining ≤ maxResponsePageRecords
      · have hmin : min maxResponsePageRecords remaining = remaining := by omega
        rw [hmin] at hread hnext ⊢
        rw [Nat.sub_self, scanJobsFrom, if_pos rfl]
        refine ⟨_, _, 1, ?_, .page (hviews page) hread, (if_pos hnext).symm⟩
        show Except.ok (_ ++ [], true) = _
        rw [List.append_nil, decide_eq_true hnext]
      · have hmin : min maxResponsePageRecords remaining = maxResponsePageRecords := by omega
        rw [hmin] at hread hnext ⊢
        obtain ⟨jobs, last, pages, hscan, hwalk, hcut⟩ := ih (remaining - maxResponsePageRecords)
          (by unfold maxResponsePageRecords at hlast ⊢; omega) (page + 1)
          (cursor + maxResponsePageRecords) (by omega) (by omega)
        have hsum : cursor + maxResponsePageRecords + (remaining - maxResponsePageRecords) =
            cursor + remaining := by omega
        rw [hsum] at hscan hcut
        rw [hscan, except_ok_bind]
        refine ⟨_, last, pages + 1, rfl, ?_, hcut⟩
        rw [List.range'_succ, List.map_cons]
        have hend : page + (pages + 1) = page + 1 + pages := by omega
        rw [hend]
        exact .more (hviews page) hread rfl hwalk
    · simp only [if_neg hnext] at hread ⊢
      have hcut : ¬ cursor + remaining ≤ latest := by omega
      refine ⟨_, _, 1, ?_, .page (hviews page) hread, (if_neg hcut).symm⟩
      rw [decide_eq_false hcut]
      rfl

/-- The records at `size` positions from `first` on. -/
def OrderedFamily.window (F : OrderedFamily α) (s : Store) (first size : Nat) : List α :=
  (List.range' first size).filterMap (F.at fun _ => s)

section

omit [Platform]

theorem OrderOk.at_eq_none (hs : OrderOk s) (hn : headOf F.family s < n) :
    F.at (fun _ => s) n = none := by
  unfold OrderedFamily.at
  rcases hent : s.read (.globalEntry F.family n) with _ | _
  · rfl
  · have hle := (hs.ordered F.family).entry_le hent
    omega

/-- A window can be cut off at the head. -/
theorem OrderOk.window_cut (hs : OrderOk s) {first size size' : Nat} (hsize : size' ≤ size)
    (hhead : headOf F.family s < first + size') : F.window s first size = F.window s first size' := by
  obtain ⟨rest, rfl⟩ := Nat.exists_eq_add_of_le hsize
  unfold OrderedFamily.window
  rw [← List.range'_append_1, List.filterMap_append]
  have hempty : (List.range' (first + size') rest).filterMap (F.at fun _ => s) = [] := by
    rw [List.filterMap_eq_nil_iff]
    intro n hn
    rw [List.mem_range'_1] at hn
    exact hs.at_eq_none (by omega)
  rw [hempty, List.append_nil]

theorem OrderedFamily.window_append (F : OrderedFamily α) (s : Store) (first size size' : Nat) :
    F.window s first size ++ F.window s (first + size) size' = F.window s first (size + size') := by
  unfold OrderedFamily.window
  rw [← List.range'_append_1, List.filterMap_append]

end

/-- Each page of a walk moves the cursor on. -/
theorem PageWalk.cursor_lt {next : Nat} (h : PageWalk F predicate s cursor views records last u)
    (hnext : last.nextCursor = some next) : cursor < next := by
  have hpage : ∀ {view : View} {cursor next : Nat} {limit : Int} {found : Page α},
      readGlobalOrderPage F view cursor limit predicate = .ok found →
      found.nextCursor = some next → cursor < next := by
    intro view cursor next limit found hread hnext
    obtain ⟨-, _, -, -, ⟨-, -, hnone⟩ | ⟨_, -, hsome⟩⟩ := readGlobalOrderPage_ok hread
    · rw [hnone] at hnext
      cases hnext
    · rw [hsome] at hnext
      split at hnext
      · cases hnext
        omega
      · cases hnext
  induction h with
  | page viewed read => exact hpage read hnext
  | more viewed read hnext' rest ih => exact (hpage read hnext').trans (ih hnext)

/-- **In a store that nobody changes**, pages with any limits return the records of the positions
that they cover. -/
theorem PageWalk.window (hF : F.Kept) (h : PageWalk F predicate s cursor views records last u)
    (hs : OrderOk s) (hviews : ∀ view ∈ views, view = fun _ => still) :
    ∀ size, (∀ next, last.nextCursor = some next → next = cursor + size) →
      (last.nextCursor = none → headOf F.family still < cursor + size) →
      records = (F.window still cursor size).filter predicate := by
  have hrecs : ∀ (first count : Nat), (List.range' first count).filterMap
      (fun n => (F.at (fun _ => still) n).filter predicate) =
        (F.window still first count).filter predicate := fun first count =>
    (List.filter_filterMap ..).symm
  induction h with
  | @page s t view cursor limit found viewed read =>
    intro size hnext hnone
    obtain rfl := hviews _ (.head _)
    have hsight := viewed.sighted hF hs
    obtain ⟨-, hlim, -, hfound, hcursor⟩ := hsight.page_eq read
    rw [hfound, hrecs]
    have hok := hsight.ok .head
    split at hcursor
    · next hle =>
        have hsize := hnext _ hcursor
        have heq : min (headOf F.family still + 1) (cursor + limit.toNat) - cursor = size := by
          omega
        rw [heq]
    · next hgt =>
        have hhead := hnone hcursor
        have hcut : F.window still cursor size = F.window still cursor
            (min (headOf F.family still + 1) (cursor + limit.toNat) - cursor) :=
          hok.window_cut (by omega) (by omega)
        rw [hcut]
  | @more s t u view cursor next limit found last views records viewed read hnext rest ih =>
    intro size hlast hnone
    obtain rfl := hviews _ (.head _)
    have hsight := viewed.sighted hF hs
    obtain ⟨-, hlim, -, hfound, hcursor⟩ := hsight.page_eq read
    rw [hnext] at hcursor
    split at hcursor
    · next hle =>
        cases hcursor
        have hsize : limit.toNat ≤ size := by
          rcases hend : last.nextCursor with _ | next
          · have hhead := hnone hend
            omega
          · have hlt := rest.cursor_lt hend
            have heq := hlast _ hend
            omega
        obtain ⟨size', rfl⟩ := Nat.exists_eq_add_of_le hsize
        have heq : min (headOf F.family still + 1) (cursor + limit.toNat) - cursor =
            limit.toNat := by omega
        have htail := ih (viewed.after hs).1
          (fun view hview => hviews view (.tail _ hview)) size'
          (fun next hend => by have := hlast next hend; omega)
          (fun hend => by have := hnone hend; omega)
        rw [hfound, hrecs, htail, heq, ← List.filter_append, F.window_append]
    · cases hcursor

/-! ### Paging along runs -/

/-- **Sequences are for ever**: what `ensure_global` returns is the mapping, a mapping stays,
distinct records have distinct sequences, and a later first assignment is larger. -/
structure SequencesHold (family : GlobalFamily) (s t : Store) : Prop where
  assigned : ∀ id v n, ((ensureGlobal family id).run t v).result = .ok n →
    ((ensureGlobal family id).run t v).store.read (.globalById family id) = some ⟨id, n⟩
  stays : ∀ id r, s.read (.globalById family id) = some r → t.read (.globalById family id) = some r
  distinct : ∀ id id' r r', t.read (.globalById family id) = some r →
    t.read (.globalById family id') = some r' → id ≠ id' → r.sequence ≠ r'.sequence
  later : ∀ id id' r r', s.read (.globalById family id) = some r →
    s.read (.globalById family id') = none → t.read (.globalById family id') = some r' →
      r.sequence < r'.sequence

omit [Platform] in
/-- Growing an order keeps its sequences for ever: a mapping stays, and a record that is mapped
later has a larger sequence. -/
theorem OrderedFrom.sequencesHold (hs : OrderOk s) (h : OrderedFrom s t) (family : GlobalFamily) :
    SequencesHold family s t := by
  refine ⟨fun id v n hn => ?_, (h.2 family).mapping, fun id id' r r' hr hr' hne hsame => ?_,
    fun id id' r r' hr hnone hr' => ?_⟩
  · have hwp : wp (ensureGlobal family id) (fun _ => True)
        (fun n u _ => u.read (.globalById family id) = some ⟨id, n⟩) (fun _ _ _ => True) t v :=
      ClioQueue.wp_ensureGlobal (h.1.ordered family) (fun _ _ => trivial) (fun _ _ _ hmap _ => hmap)
        fun _ => trivial
    have hres := hwp.2
    rw [hn] at hres
    exact hres
  · exact hne ((h.1.ordered family).distinct id id' r r' hr hr' hsame)
  · exact ((hs.ordered family).mapping id r hr).2.2.trans_lt ((h.2 family).later id' r' hnone hr')

/-- **Paging from `s` on**: no page raises, and following the cursors from 1 to the end returns
every record that is there throughout exactly once, in the order of the sequences. -/
structure PagingHolds (F : OrderedFamily α) (predicate : α → Bool) (s : Store) : Prop where
  returns : ∀ view t, Viewed s view t → ∀ cursor limit : Nat, 1 ≤ cursor → 1 ≤ limit →
    limit ≤ maxResponsePageRecords →
      ∃ page, readGlobalOrderPage F view cursor limit predicate = .ok page
  walk : ∀ views records last t, PageWalk F predicate s 1 views records last t →
    last.nextCursor = none → (records.map (F.sequenceOf t)).Pairwise (· < ·) ∧
      ∀ id, (∀ view ∈ views, ∀ r, ∃ record, F.find (view r) id = some record ∧
        predicate record = true) → (records.map F.identity).count id = 1

theorem OrderOk.pagingHolds (hs : OrderOk s) (hF : F.Kept) (predicate : α → Bool) :
    PagingHolds F predicate s := by
  refine ⟨fun view t hviewed cursor limit hcursor hlim hbd => ?_,
    fun views records last t hwalk hlast => ?_⟩
  · exact ⟨_, (hviewed.sighted hF hs).readGlobalOrderPage_eq predicate hcursor hlim hbd⟩
  · obtain ⟨hsort, honce⟩ := hwalk.exactly_once hF hs
    refine ⟨hsort, fun id hthere => honce id hthere fun next hnext => ?_⟩
    rw [hlast] at hnext
    cases hnext

/-- **Scanning `n` positions from `s` on**: a scan is a walk over them and says that there is more
exactly when the head that its last page has seen is beyond them; in a store that nobody changes
it returns what pages with any limits over them return. -/
structure ScanHolds (s : Store) (n : Nat) : Prop where
  walk : ∀ (stores : Nat → Store) (views : Nat → View), stores 0 = s →
    (∀ k, Viewed (stores k) (views k) (stores (k + 1))) →
    ∃ jobs last pages, scanJobs views n = .ok (jobs, decide (n < last.total)) ∧
      PageWalk orderedJobs ({} : JobFilter).matches s 1 ((List.range' 0 pages).map views) jobs last
        (stores pages) ∧
      last.nextCursor = if n < last.total then some (n + 1) else none
  still : ∃ jobs, scanJobs (fun _ _ => s) n = .ok (jobs, decide (n < headOf .jobs s)) ∧
    ∀ views records last, PageWalk orderedJobs ({} : JobFilter).matches s 1 views records last s →
      (∀ view ∈ views, view = fun _ => s) →
      last.nextCursor = (if n < headOf .jobs s then some (n + 1) else none) → records = jobs

omit [Platform] in
/-- Pages over the same positions of a store that nobody changes have seen its head. -/
theorem PageWalk.total_eq [Platform] (hF : F.Kept)
    (h : PageWalk F predicate s cursor views records last u) (hs : OrderOk s)
    (hviews : ∀ view ∈ views, view = fun _ => still) : last.total = headOf F.family still := by
  induction h with
  | page viewed read =>
    obtain rfl := hviews _ (.head _)
    exact ((viewed.sighted hF hs).page_eq read).2.2.1
  | more viewed read hnext rest ih =>
    exact ih (viewed.after hs).1 fun view hview => hviews view (.tail _ hview)

/-- A scan of an ordered store is a walk over its positions that says exactly whether there is more,
while other writers go on. -/
theorem OrderOk.scanHolds (hs : OrderOk s) (hn : 1 ≤ n) : ScanHolds s n := by
  have hscan : ∀ (stores : Nat → Store) (views : Nat → View), stores 0 = s →
      (∀ k, Viewed (stores k) (views k) (stores (k + 1))) →
      ∃ jobs last pages, scanJobs views n = .ok (jobs, decide (n < last.total)) ∧
        PageWalk orderedJobs ({} : JobFilter).matches s 1 ((List.range' 0 pages).map views) jobs last
          (stores pages) ∧
        last.nextCursor = if n < last.total then some (n + 1) else none := by
    intro stores views hstart hviews
    obtain ⟨jobs, last, pages, hscan, hwalk, hnext⟩ :=
      scanJobsFrom_walk hviews (hstart ▸ hs) n 0 1 hn le_rfl
    rw [Nat.add_comm 1 n] at hscan hnext
    rw [hstart, Nat.zero_add] at hwalk
    refine ⟨jobs, last, pages, ?_, hwalk, hnext⟩
    unfold scanJobs
    rw [if_neg (by omega), Int.toNat_natCast, hscan]
    rfl
  refine ⟨hscan, ?_⟩
  have hstill : Viewed s (fun _ => s) s := ⟨fun _ => .refl, fun _ _ _ => .refl, fun _ => .refl⟩
  obtain ⟨jobs, last, pages, hjobs, hwalk, hnext⟩ :=
    hscan (fun _ => s) (fun _ _ => s) rfl fun _ => hstill
  have hviews : ∀ view ∈ (List.range' 0 pages).map fun _ => (fun _ : PageRead => s),
      view = fun _ => s := by
    intro view hview
    obtain ⟨_, -, rfl⟩ := List.mem_map.1 hview
    rfl
  have htot := hwalk.total_eq orderedJobs_kept hs hviews
  rw [htot] at hjobs hnext
  refine ⟨jobs, hjobs, fun views records last' hwalk' hviews' hnext' => ?_⟩
  have hcover : ∀ {last : Page RelayJob},
      last.nextCursor = (if n < headOf .jobs s then some (n + 1) else none) →
      (∀ next, last.nextCursor = some next → next = 1 + n) ∧
        (last.nextCursor = none → headOf .jobs s < 1 + n) := by
    intro last hlast
    refine ⟨fun next hsome => ?_, fun hnone => ?_⟩
    · rw [hlast] at hsome
      split at hsome
      · cases hsome
        omega
      · cases hsome
    · rw [hlast] at hnone
      split at hnone
      · cases hnone
      · omega
  rw [hwalk.window orderedJobs_kept hs hviews n (hcover hnext).1 (hcover hnext).2,
    hwalk'.window orderedJobs_kept hs hviews' n (hcover hnext').1 (hcover hnext').2]

/-- **Global paging is complete and free of duplicates** in every state that submissions,
creations of gateway sessions and collections can reach. -/
theorem global_paging_of_run {s₀ : Store} (h₀ : InitializedQueue s₀) (hrun : OrderCall.Run s₀ s) :
    (∀ t, OrderCall.Run s t → ∀ family, SequencesHold family s t) ∧
      (∀ filter : JobFilter, PagingHolds orderedJobs filter.matches s) ∧
      (∀ filter : GatewayFilter, PagingHolds orderedGatewaySessions filter.matches s) ∧
      ∀ n, 1 ≤ n → ScanHolds s n := by
  have hs := (hrun.orderedFrom h₀.orderOk).1
  exact ⟨fun t ht family => (ht.orderedFrom hs).sequencesHold hs family,
    fun filter => hs.pagingHolds orderedJobs_kept _,
    fun filter => hs.pagingHolds orderedGatewaySessions_kept _, fun n hn => hs.scanHolds hn⟩

end

/-! ### A sample run -/

/-- An initialized queue. -/
def sampleInitialized : Store :=
  Files.empty.write .migrationState ⟨true, true, true, true, none, 0, 0⟩

theorem initializedQueue_sample : InitializedQueue sampleInitialized := by
  refine ⟨⟨_, Files.read_write_self .., rfl⟩, fun p _ hp => ?_⟩
  rw [sampleInitialized, Files.read_write_ne _ hp, Files.read_empty]

/-- A submission has stopped between the head and the mapping, and has been repeated. -/
def sampleOrdered : Store :=
  let m := @OrderCall.prog samplePlatform sampleEntropy (.submitJob sampleJob)
  m.stopped 100 (m.stopped 2 sampleInitialized sampleSupply) sampleSupply

/-- The repeated submission has burnt a sequence; the job is found at the second position, and
paging and scanning hold from there on. -/
theorem global_paging_of_run_sample :
    headOf .jobs sampleOrdered = 2 ∧
      ((listJobsPage (fun _ => sampleOrdered) 1 500 {}).toOption.map fun page =>
        page.records.map RelayJob.jobId) = some [sampleJob.jobId] ∧
      @PagingHolds samplePlatform _ orderedJobs ({} : JobFilter).matches sampleOrdered ∧
      @ScanHolds samplePlatform sampleOrdered 1 := by
  let := samplePlatform
  let := sampleEntropy
  have hrun : OrderCall.Run sampleInitialized sampleOrdered := by
    have hcall : ∀ writes s, OrderCall.Step s
        ((OrderCall.prog (.submitJob sampleJob)).stopped writes s sampleSupply) := fun writes s =>
      .inl ⟨sampleEntropy, .submitJob sampleJob, sampleSupply, stopped_mem_halts ..⟩
    exact .head (hcall 2 _) (.single (hcall 100 _))
  obtain ⟨-, hjobs, -, hscan⟩ := global_paging_of_run initializedQueue_sample hrun
  exact ⟨by decide +kernel, by decide +kernel, hjobs {}, hscan 1 le_rfl⟩

end ClioQueue
