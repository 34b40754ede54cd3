/-
# The queue of an owner-session generation, in pages

`list_owner_session_jobs_page` of `clio_relay/queue_jobs.py` and `_list_owned_session_queue` of
`clio_relay/http_api_queue_paging.py`.

A page of the membership starts after the name of a file; a page of the queue starts at a position.
The queue skips to its position in windows of the membership, then selects from windows until it has
enough jobs or has scanned enough members.
-/

import ClioQueue.GlobalPages

namespace ClioQueue

/-! ### A page of the membership -/

/-- The membership files of a generation in the order of their names, and the jobs. -/
structure MembershipDirectory where
  files : List (String × OwnerSessionJobMembership)
  ordered : files.Pairwise fun a b => a.1 < b.1
  jobs : DurableRecordId → Option RelayJob
  migrated : Bool

/-- `cursor.endswith(".json")` and `Path(cursor).name == cursor`. -/
def isRecordName (name : String) : Bool :=
  ".json".toList.isSuffixOf name.toList && !name.toList.contains '/'

/-- The members of one window: every file with its job. -/
def readMembers (m : MembershipDirectory) (owner : String) (generation : Option DurableRecordId)
    (cluster : Option String) (includeTerminal : Bool) :
    List (String × OwnerSessionJobMembership) → Except RelayError (List RelayJob)
  | [] => .ok []
  | (name, membership) :: window =>
    if membership.ownerSessionId ≠ owner ∨ membership.sessionGenerationId ≠ generation then
      .error (.conflict s!"owner-session membership identity mismatch: {name}")
    else
      match m.jobs membership.jobId with
      | none => .error (.notFound s!"job not found: {membership.jobId}")
      | some job =>
        if job.metadata.get "owner_session_id" ≠ .str owner ∨
            job.metadata.get "owner_session_generation_id" ≠
              (generation.elim .null fun id => .str id.value) then
          .error (.conflict s!"owner-session membership target mismatch: {membership.jobId}")
        else
          (readMembers m owner generation cluster includeTerminal window).map fun jobs =>
            if cluster.any (job.cluster ≠ ·) || !includeTerminal && job.state.terminal then jobs
            else job :: jobs

/-- What `list_owner_session_jobs_page` returns. -/
structure MembershipPage where
  jobs : List RelayJob
  nextCursor : Option String
  sourceTotal : Nat
  scanned : Nat

/-- `list_owner_session_jobs_page`. -/
def listOwnerSessionJobsPage (m : MembershipDirectory) (owner : String)
    (generation : Option DurableRecordId) (cursor : Option String) (limit : Int)
    (cluster : Option String) (includeTerminal : Bool) : Except RelayError MembershipPage := do
  if owner = "" then throw (.value "owner_session_id must not be empty")
  let limit ← validateResponsePageLimit limit
  if !m.migrated then
    throw (.conflict "queue indexes require migration; run `clio-relay queue migrate-indexes` before starting workers")
  if m.files.length > maxActiveJobRecords then
    throw (.conflict "owner-session job membership exceeds its supported capacity")
  if cursor.any (!isRecordName ·) then
    throw (.value "owner-session membership cursor is invalid")
  let files := m.files.filter fun file => cursor.all (· < file.1)
  let window := files.take limit
  let jobs ← readMembers m owner generation cluster includeTerminal window
  pure
    { jobs, nextCursor := if window.length < files.length then window.getLast?.map Prod.fst else none
      sourceTotal := m.files.length, scanned := window.length }

/-! ### A page of the queue -/

/-- The filters of `GET /queue`. -/
structure QueueFilters where
  cluster : Option String
  state : Option JobState
  kind : Option JobKind
  includeTerminal : Bool
  deriving DecidableEq

/-- The four tests of the selection. -/
def QueueFilters.passes (filters : QueueFilters) (job : RelayJob) : Bool :=
  filters.cluster.all (job.cluster = ·) && filters.state.all (job.state = ·) &&
    filters.kind.all (job.kind = ·) &&
    !(!filters.includeTerminal && filters.state.isNone && job.state.terminal)

/-- `_owned_queue_page`. -/
structure OwnedQueuePage where
  jobs : List RelayJob
  filters : QueueFilters
  sourceCursor : Nat
  sourceLimit : Nat
  sourceNextCursor : Option Nat
  sourceTotal : Nat
  scanLimit : Nat
  scanCount : Nat

/-- Where the membership is read on: the name of the last file read, the position of the next one,
and the number of members, once known. -/
structure MembershipPlace where
  name : Option String
  position : Nat
  total : Option Nat

/-- The loop that skips to `cursor`; every turn reads a member, so that `cursor` turns are enough. -/
def skipMembers (read : Option String → Int → Except RelayError MembershipPage) (cursor : Nat) :
    Nat → MembershipPlace → Except RelayError MembershipPlace
  | 0, place => .ok place
  | turns + 1, place =>
    if cursor ≤ place.position then .ok place
    else do
      let skip := min maxResponsePageRecords (cursor - place.position)
      let page ← read place.name skip
      let position := place.position + page.scanned
      if page.scanned < skip then pure ⟨none, position, some page.sourceTotal⟩
      else
        match page.nextCursor with
        | none => pure ⟨none, position, some page.sourceTotal⟩
        | some name => skipMembers read cursor turns ⟨some name, position, some page.sourceTotal⟩

/-- The loop over the jobs of a window, up to the one that fills the page: the jobs selected and how
many have been looked at. -/
def selectJobs (filters : QueueFilters) (limit : Nat) :
    (selected : List RelayJob) → List RelayJob → List RelayJob × Nat
  | selected, [] => (selected, 0)
  | selected, job :: jobs =>
    if filters.passes job then
      if selected.length + 1 = limit then (selected ++ [job], 1)
      else ((selectJobs filters limit (selected ++ [job]) jobs).1,
        (selectJobs filters limit (selected ++ [job]) jobs).2 + 1)
    else ((selectJobs filters limit selected jobs).1, (selectJobs filters limit selected jobs).2 + 1)

/-- The jobs selected so far, the members scanned for them, and where to read on. -/
structure QueueScan where
  selected : List RelayJob
  scanned : Nat
  place : MembershipPlace
  reachedEnd : Bool

/-- The loop that selects; every turn but the last scans a member, so that `scan_limit` turns are
enough. -/
def scanMembers (read : Option String → Int → Except RelayError MembershipPage)
    (filters : QueueFilters) (limit scanLimit : Nat) :
    Nat → QueueScan → Except RelayError QueueScan
  | 0, scan => .ok scan
  | turns + 1, scan =>
    if scan.reachedEnd || decide (scanLimit ≤ scan.scanned) || decide (limit ≤ scan.selected.length)
    then .ok scan
    else do
      let page ← read scan.place.name (min maxResponsePageRecords (scanLimit - scan.scanned) : Nat)
      if scan.place.total.any (· ≠ page.sourceTotal) then
        throw (.conflict "owner-session membership changed during queue paging")
      let selection := selectJobs filters limit scan.selected page.jobs
      let scanned := scan.scanned + selection.2
      let position := scan.place.position + selection.2
      if selection.2 < page.scanned then
        pure ⟨selection.1, scanned, ⟨scan.place.name, position, some page.sourceTotal⟩, false⟩
      else
        scanMembers read filters limit scanLimit turns
          ⟨selection.1, scanned, ⟨page.nextCursor, position, some page.sourceTotal⟩,
            page.nextCursor.isNone || page.scanned = 0⟩

/-- `_list_owned_session_queue`. -/
def listOwnedSessionQueue (m : MembershipDirectory) (owner : String) (generation : DurableRecordId)
    (filters : QueueFilters) (cursor limit scanLimit : Nat) : Except RelayError OwnedQueuePage := do
  let read name limit := listOwnerSessionJobsPage m owner (some generation) name limit none true
  let place ← skipMembers read cursor cursor ⟨none, 1, none⟩
  if place.total.any fun total => place.position < cursor || total + 1 < cursor then
    pure ⟨[], filters, cursor, limit, none, place.total.getD 0, scanLimit, 0⟩
  else do
    let scan ← scanMembers read filters limit scanLimit (scanLimit + 1)
      ⟨[], 0, place, place.total.any (· < place.position)⟩
    let total := scan.place.total.getD 0
    pure
      { jobs := scan.selected, filters, sourceCursor := cursor, sourceLimit := limit
        sourceNextCursor := if scan.place.position ≤ total then some scan.place.position else none
        sourceTotal := total, scanLimit, scanCount := scan.scanned }

/-! ### The membership -/

/-- The membership of a generation, which has these jobs in this order. -/
structure Members (m : MembershipDirectory) (owner : String) (generation : DurableRecordId)
    (jobs : List RelayJob) : Prop where
  nonempty : owner ≠ ""
  migrated : m.migrated = true
  within : m.files.length ≤ maxActiveJobRecords
  named : ∀ file ∈ m.files, isRecordName file.1 = true
  records : ∀ file ∈ m.files,
    file.2.ownerSessionId = owner ∧ file.2.sessionGenerationId = some generation
  present : m.files.map (fun file => m.jobs file.2.jobId) = jobs.map some
  targets : ∀ job ∈ jobs, job.metadata.get "owner_session_id" = .str owner ∧
    job.metadata.get "owner_session_generation_id" = .str generation.value

/-- The name after which the members from the `count`-th on come. -/
def MembershipDirectory.nameAt (m : MembershipDirectory) : (count : Nat) → Option String
  | 0 => none
  | count + 1 => m.files[count]?.map Prod.fst

variable {m : MembershipDirectory} {owner : String} {generation : DurableRecordId}
  {jobs : List RelayJob} {filters : QueueFilters} {limit scanLimit : Nat}

theorem Members.length_eq (h : Members m owner generation jobs) : m.files.length = jobs.length := by
  simpa using congrArg List.length h.present

/-- **The files after a name** are those after its place. -/
theorem MembershipDirectory.filter_nameAt (m : MembershipDirectory) {count : Nat}
    (hcnt : count ≤ m.files.length) :
    m.files.filter (fun file => (m.nameAt count).all (· < file.1)) = m.files.drop count := by
  rcases count with _ | count
  · exact List.filter_eq_self.2 fun _ _ => rfl
  · have hord := m.ordered
    have hsplit := List.take_append_drop (count + 1) m.files
    have hlast : m.files.take (count + 1) = m.files.take count ++ [m.files[count]] :=
      (List.take_concat_get' ..).symm
    rw [nameAt, List.getElem?_eq_getElem hcnt]
    generalize m.files[count] = last at *
    rw [hlast] at hsplit
    rw [← hsplit] at hord
    conv_lhs => rw [← hsplit]
    obtain ⟨hbefore, -, hafter⟩ := List.pairwise_append.1 hord
    rw [List.filter_append, List.filter_eq_nil_iff.2, List.filter_eq_self.2, List.nil_append]
    · exact fun file hfile => decide_eq_true (hafter last (by simp) file hfile)
    · intro file hfile
      simp only [Option.map_some, Option.all_some, decide_eq_true_eq]
      rcases List.mem_append.1 hfile with hfile | hfile
      · exact String.lt_asymm ((List.pairwise_append.1 hbefore).2.2 file hfile last (by simp))
      · rw [List.mem_singleton.1 hfile]
        exact String.lt_irrefl _

theorem Members.nameAt_eq (h : Members m owner generation jobs) (count : Nat) (hpos : 0 < count)
    (hcnt : count ≤ jobs.length) : ∃ name, m.nameAt count = some name ∧ isRecordName name = true := by
  obtain ⟨count, rfl⟩ : ∃ n, count = n + 1 := ⟨count - 1, by omega⟩
  rw [MembershipDirectory.nameAt, List.getElem?_eq_getElem (by rw [h.length_eq]; omega)]
  exact ⟨_, rfl, h.named _ (List.getElem_mem _)⟩

theorem readMembers_eq {window : List (String × OwnerSessionJobMembership)}
    (hrecs : ∀ file ∈ window,
      file.2.ownerSessionId = owner ∧ file.2.sessionGenerationId = some generation)
    (hjobs : window.map (fun file => m.jobs file.2.jobId) = jobs.map some)
    (htargets : ∀ job ∈ jobs, job.metadata.get "owner_session_id" = .str owner ∧
      job.metadata.get "owner_session_generation_id" = .str generation.value) :
    readMembers m owner (some generation) none true window = .ok jobs := by
  induction window generalizing jobs with
  | nil =>
    rw [List.map_eq_nil_iff.1 hjobs.symm]
    rfl
  | cons file window ih =>
    rcases jobs with _ | ⟨job, jobs⟩
    · cases hjobs
    · obtain ⟨hjob, hjobs⟩ := List.cons.inj hjobs
      obtain ⟨howner, hgen⟩ := hrecs file List.mem_cons_self
      obtain ⟨hsess, htgt⟩ := htargets job List.mem_cons_self
      have hrest := ih (fun file hfile => hrecs file (List.mem_cons_of_mem _ hfile)) hjobs
        fun job hmem => htargets job (List.mem_cons_of_mem _ hmem)
      have hjob : m.jobs file.2.jobId = some job := hjob
      rw [readMembers, if_neg (by simp [howner, hgen]), hjob]
      simp only
      rw [if_neg (by simp [hsess, htgt]), hrest]
      rfl

/-- **A window of the membership** from a place on. -/
theorem Members.page_eq (h : Members m owner generation jobs) {count : Nat}
    (hcnt : count ≤ jobs.length) {limit : Nat} (hpos : 1 ≤ limit)
    (hle : limit ≤ maxResponsePageRecords) :
    listOwnerSessionJobsPage m owner (some generation) (m.nameAt count) limit none true = .ok
      { jobs := (jobs.drop count).take limit
        nextCursor := if count + limit < jobs.length then m.nameAt (count + limit) else none
        sourceTotal := jobs.length, scanned := min limit (jobs.length - count) } := by
  have hread : readMembers m owner (some generation) none true ((m.files.drop count).take limit) =
      .ok ((jobs.drop count).take limit) := by
    refine readMembers_eq (fun file hfile => h.records file ?_) ?_ fun job hjob => h.targets job ?_
    · exact List.mem_of_mem_drop (List.mem_of_mem_take hfile)
    · rw [List.map_take, List.map_drop, h.present, List.map_take, List.map_drop]
    · exact List.mem_of_mem_drop (List.mem_of_mem_take hjob)
  have hname : (m.nameAt count).any (!isRecordName ·) = false := by
    rcases Nat.eq_zero_or_pos count with rfl | hcnt'
    · rfl
    · obtain ⟨_, hname, hrec⟩ := h.nameAt_eq count hcnt' hcnt
      simp [hname, hrec]
  have hlimit : validateResponsePageLimit limit = .ok limit := by
    rw [validateResponsePageLimit, if_neg (by omega), Int.toNat_natCast]
  have hnext : (if ((m.files.drop count).take limit).length < (m.files.drop count).length then
      ((m.files.drop count).take limit).getLast?.map Prod.fst else none) =
      if count + limit < jobs.length then m.nameAt (count + limit) else none := by
    rw [List.length_take, List.length_drop, h.length_eq]
    by_cases hmore : count + limit < jobs.length
    · rw [if_pos hmore, if_pos (by omega), List.getLast?_eq_getElem?, List.length_take,
        List.length_drop, h.length_eq, List.getElem?_take_of_lt (by omega), List.getElem?_drop]
      obtain ⟨last, rfl⟩ := Nat.exists_eq_add_of_le hpos
      rw [show count + (1 + last) = count + last + 1 by omega, MembershipDirectory.nameAt]
      congr 2
      omega
    · rw [if_neg hmore, if_neg (by omega)]
  unfold listOwnerSessionJobsPage
  simp only [if_neg h.nonempty, hlimit, h.migrated, Bool.not_true, Bool.false_eq_true, if_false,
    hname, m.filter_nameAt (h.length_eq ▸ hcnt), if_neg (Nat.not_lt.2 h.within), bind, Except.bind,
    hread, hnext]
  rw [h.length_eq, List.length_take, List.length_drop, h.length_eq]
  rfl

/-! ### The loops -/

/-- **Skipping** stops at the position asked for. -/
theorem Members.skip_eq (h : Members m owner generation jobs) {cursor : Nat} (turns : Nat)
    {count : Nat} (hcnt : count + 1 ≤ cursor) (hcursor : count + 1 < cursor → cursor ≤ jobs.length)
    (hturns : cursor ≤ turns + (count + 1)) (total : Option Nat) :
    skipMembers (fun name limit => listOwnerSessionJobsPage m owner (some generation) name limit
        none true) cursor turns ⟨m.nameAt count, count + 1, total⟩ =
      .ok ⟨m.nameAt (cursor - 1), cursor, if count + 1 < cursor then some jobs.length else total⟩ := by
  induction turns generalizing count total with
  | zero =>
    obtain rfl : cursor = count + 1 := by omega
    rw [skipMembers, if_neg (lt_irrefl _)]
    rfl
  | succ turns ih =>
    rw [skipMembers]
    rcases Nat.lt_or_ge (count + 1) cursor with hmore | _
    · have hend := hcursor hmore
      have hmax : 0 < maxResponsePageRecords := by decide
      rw [if_neg (by dsimp only; omega), if_pos hmore]
      dsimp only
      generalize hskip : min maxResponsePageRecords (cursor - (count + 1)) = skip
      rw [h.page_eq (by omega) (by omega) (by omega), if_pos (by omega)]
      obtain ⟨name, hname, -⟩ := h.nameAt_eq (count + skip) (by omega) (by omega)
      have hrest := ih (show count + skip + 1 ≤ cursor by omega) (fun _ => hend) (by omega)
        (some jobs.length)
      have hread : min skip (jobs.length - count) = skip := by omega
      rw [ite_self, hname, show count + skip + 1 = count + 1 + skip by omega] at hrest
      rw [hname, hread]
      show (if skip < skip then _ else _) = _
      rw [if_neg (lt_irrefl _)]
      exact hrest
    · obtain rfl : cursor = count + 1 := by omega
      rw [if_pos (le_refl _), if_neg (lt_irrefl _)]
      rfl

/-- **What is selected from a window**: the first jobs of it, filtered. -/
theorem selectJobs_spec (filters : QueueFilters) (jobs : List RelayJob) {selected : List RelayJob}
    (hroom : selected.length < limit) :
    ∃ count ≤ jobs.length, selectJobs filters limit selected jobs =
        (selected ++ (jobs.take count).filter filters.passes, count) ∧
      (jobs ≠ [] → 0 < count) ∧ (selectJobs filters limit selected jobs).1.length ≤ limit := by
  induction jobs generalizing selected with
  | nil => exact ⟨0, le_rfl, by simp [selectJobs], by simp, by simpa [selectJobs] using hroom.le⟩
  | cons job jobs ih =>
    rw [selectJobs]
    split_ifs with hpass hfull
    · exact ⟨1, by simp, by simp [hpass], fun _ => Nat.one_pos, by simp [hfull]⟩
    · obtain ⟨count, hle, heq, -, hlen⟩ := ih
        (show (selected ++ [job]).length < limit by rw [List.length_append, List.length_singleton]; omega)
      refine ⟨count + 1, by simpa using hle, ?_, fun _ => Nat.succ_pos _, hlen⟩
      rw [heq, List.take_succ_cons, List.filter_cons_of_pos hpass, List.append_assoc]
      rfl
    · obtain ⟨count, hle, heq, -, hlen⟩ := ih hroom
      refine ⟨count + 1, by simpa using hle, ?_, fun _ => Nat.succ_pos _, hlen⟩
      rw [heq, List.take_succ_cons, List.filter_cons_of_neg hpass]

/-- The scan has read the members from `start` to `count` and selected from them. -/
structure Scanned (m : MembershipDirectory) (jobs : List RelayJob) (filters : QueueFilters)
    (limit scanLimit start count : Nat) (scan : QueueScan) : Prop where
  start_le : start ≤ count
  count_le : count ≤ jobs.length
  selected : scan.selected = ((jobs.drop start).take (count - start)).filter filters.passes
  length_le : scan.selected.length ≤ limit
  scanned : scan.scanned = count - start
  scanned_le : scan.scanned ≤ scanLimit
  position : scan.place.position = count + 1

theorem scanMembers_reached {read : Option String → Int → Except RelayError MembershipPage}
    {scan : QueueScan} (h : scan.reachedEnd = true) (turns : Nat) :
    scanMembers read filters limit scanLimit turns scan = .ok scan := by
  rcases turns with _ | turns
  · rfl
  · rw [scanMembers, if_pos (by simp [h])]

/-- **Scanning** goes on from a place, past it unless it is the end. -/
theorem Members.scan_eq (h : Members m owner generation jobs) {start : Nat} (turns : Nat)
    {count : Nat} {scan : QueueScan} (hscan : Scanned m jobs filters limit scanLimit start count scan)
    (hreach : scan.reachedEnd = false) (hname : scan.place.name = m.nameAt count)
    (htot : scan.place.total = some jobs.length ∨
      scan.place.total = none ∧ scan.selected.length < limit ∧ scan.scanned < scanLimit)
    (hturns : scanLimit < turns + scan.scanned) :
    ∃ scan' count', scanMembers (fun name limit => listOwnerSessionJobsPage m owner (some generation)
        name limit none true) filters limit scanLimit turns scan = .ok scan' ∧
      Scanned m jobs filters limit scanLimit start count' scan' ∧
      scan'.place.total = some jobs.length ∧ count ≤ count' ∧
      (scan.selected.length < limit → scan.scanned < scanLimit → count < jobs.length →
        count < count') := by
  induction turns generalizing count scan with
  | zero => exact absurd hscan.scanned_le (by omega)
  | succ turns ih =>
    obtain ⟨_, hcnt, hselected, -, _, _, _⟩ := id hscan
    rw [scanMembers, hreach, Bool.false_or]
    by_cases hstop : scanLimit ≤ scan.scanned ∨ limit ≤ scan.selected.length
    · rw [if_pos (by simpa using hstop)]
      exact ⟨scan, count, rfl, hscan, htot.resolve_right fun hnone => by omega, le_rfl,
        fun _ _ _ => by omega⟩
    · rw [if_neg (by simpa using hstop)]
      obtain ⟨_, hroom⟩ := not_or.1 hstop
      have hmax : 0 < maxResponsePageRecords := by decide
      generalize hw : min maxResponsePageRecords (scanLimit - scan.scanned) = window
      rw [hname, h.page_eq hcnt (by omega) (by omega)]
      obtain ⟨taken, _, hsel, hsome, hlen⟩ := selectJobs_spec filters
        ((jobs.drop count).take window) (Nat.not_le.1 hroom)
      rw [hsel] at hlen
      have hjobs : ((jobs.drop count).take window).length = min window (jobs.length - count) := by
        rw [List.length_take, List.length_drop]
      have hprog : count < jobs.length → 0 < taken := fun hlt => hsome fun hnil => by
        rw [hnil, List.length_nil] at hjobs
        omega
      have hfiltered : scan.selected ++
          (((jobs.drop count).take window).take taken).filter filters.passes =
            ((jobs.drop start).take (count + taken - start)).filter filters.passes := by
        rw [List.take_take, Nat.min_eq_left (by omega), hselected, ← List.filter_append]
        congr 1
        rw [show count + taken - start = count - start + taken by omega, List.take_add,
          List.drop_drop, show start + (count - start) = count by omega]
      have hnext : ∀ name reached, Scanned m jobs filters limit scanLimit start (count + taken)
          ⟨scan.selected ++ (((jobs.drop count).take window).take taken).filter filters.passes,
            scan.scanned + taken, ⟨name, scan.place.position + taken, some jobs.length⟩,
            reached⟩ := fun name reached => by
        refine ⟨by omega, by omega, hfiltered, hlen, ?_, ?_, ?_⟩ <;> dsimp only <;> omega
      have hsame : scan.place.total.any (· ≠ jobs.length) = false := by
        rcases htot with htot | ⟨htot, -⟩ <;> simp [htot]
      show ∃ scan' count', (if scan.place.total.any (· ≠ jobs.length) = true then _ else _) =
        Except.ok scan' ∧ _
      rw [hsame, if_neg Bool.false_ne_true, hsel]
      dsimp only [pure, Except.pure]
      by_cases hpart : taken < min window (jobs.length - count)
      · rw [if_pos hpart]
        exact ⟨_, count + taken, rfl, hnext _ _, rfl, by omega,
          fun _ _ hlt => by have := hprog hlt; omega⟩
      · -- the whole window has been looked at
        rw [if_neg hpart]
        by_cases hlt : count + window < jobs.length
        · have hall : taken = window := by omega
          obtain ⟨name, hthere, -⟩ := h.nameAt_eq (count + window) (by omega) (by omega)
          obtain ⟨scan', count', heq, hscan', htot', _, -⟩ := ih (hnext (some name) false) rfl
            (by rw [hall, hthere]) (.inl rfl) (by dsimp only; omega)
          rw [if_pos hlt, hthere, Option.isNone_some, Bool.false_or, decide_eq_false (by omega)]
          exact ⟨scan', count', heq, hscan', htot', by omega, fun _ _ _ => by omega⟩
        · rw [if_neg hlt, scanMembers_reached (by rfl)]
          exact ⟨_, count + taken, rfl, hnext _ _, rfl, by omega,
            fun _ _ hlt => by have := hprog hlt; omega⟩

/-! ### The pages -/

/-- **A page of the queue** reads the members from its position on, one at least unless it is past
the last. -/
theorem Members.queuePage (h : Members m owner generation jobs) (filters : QueueFilters)
    (hlimit : 1 ≤ limit) (hscan : limit ≤ scanLimit) {start : Nat}
    (hstart : start = 0 ∨ start < jobs.length) :
    ∃ page count, listOwnedSessionQueue m owner generation filters (start + 1) limit scanLimit =
        .ok page ∧ start ≤ count ∧ count ≤ jobs.length ∧ (start < jobs.length → start < count) ∧
      page.jobs = ((jobs.drop start).take (count - start)).filter filters.passes ∧
      page.jobs.length ≤ limit ∧ page.scanCount ≤ scanLimit ∧ page.sourceCursor = start + 1 ∧
      page.scanCount = count - start ∧
      page.sourceNextCursor = if count < jobs.length then some (count + 1) else none := by
  have hskip := h.skip_eq (start + 1) (show 0 + 1 ≤ start + 1 by omega)
    (fun _ => by omega) (by omega) none
  generalize htot : (if 0 + 1 < start + 1 then some jobs.length else none) = total at hskip
  have htot : total = if start = 0 then none else some jobs.length := by
    rw [← htot]
    split_ifs <;> first | rfl | omega
  obtain ⟨_, count, hscanned, hread, hknown, hle, hprog⟩ :=
    h.scan_eq (scanLimit + 1) (show Scanned m jobs filters limit scanLimit start start
          ⟨[], 0, ⟨m.nameAt start, start + 1, total⟩, false⟩ from
        ⟨le_rfl, by omega, by simp, Nat.zero_le _, by simp, Nat.zero_le _, rfl⟩) rfl rfl
      (by
        rw [htot]
        split_ifs
        · exact .inr ⟨rfl, by exact hlimit, by dsimp only; omega⟩
        · exact .inl rfl) (by omega)
  have hgoes : total.any (fun total => start + 1 < start + 1 || total + 1 < start + 1) = false ∧
      total.any (· < start + 1) = false := by
    rw [htot]
    split_ifs
    · exact ⟨rfl, rfl⟩
    · constructor <;> simp <;> omega
  unfold listOwnedSessionQueue
  dsimp only
  rw [show (⟨none, 1, none⟩ : MembershipPlace) = ⟨m.nameAt 0, 0 + 1, none⟩ from rfl, hskip]
  dsimp only [bind, Except.bind]
  rw [Nat.add_sub_cancel, hgoes.1, if_neg Bool.false_ne_true, hgoes.2, hscanned]
  refine ⟨_, count, rfl, hle, hread.count_le, hprog (by exact hlimit) (by dsimp only; omega),
    hread.selected, hread.length_le, hread.scanned_le, rfl, hread.scanned, ?_⟩
  dsimp only
  rw [hread.position, hknown]
  rfl

/-- The pages that follow `source_next_cursor` to the end. -/
inductive FollowedPages (call : Nat → Except RelayError OwnedQueuePage) :
    Nat → List OwnedQueuePage → Prop where
  | last {cursor : Nat} {page : OwnedQueuePage} (returned : call cursor = .ok page)
      (ended : page.sourceNextCursor = none) : FollowedPages call cursor [page]
  | more {cursor next : Nat} {page : OwnedQueuePage} {pages : List OwnedQueuePage}
      (returned : call cursor = .ok page) (goes : page.sourceNextCursor = some next)
      (rest : FollowedPages call next pages) : FollowedPages call cursor (page :: pages)

/-- **The queue of a generation is listed completely.**  With any filters and limits the pages can be
followed from cursor 1 to the end; together they hold the members that pass, each once and in the
order of the membership; no page has more jobs or scans more members than it may, and exactly the
one that reaches the last member has no next cursor. -/
theorem owned_queue_pages_complete (h : Members m owner generation jobs) (filters : QueueFilters)
    (hlimit : 1 ≤ limit) (hscan : limit ≤ scanLimit) :
    ∃ pages, FollowedPages (fun cursor =>
        listOwnedSessionQueue m owner generation filters cursor limit scanLimit) 1 pages ∧
      pages.flatMap (·.jobs) = jobs.filter filters.passes ∧
      ∀ page ∈ pages, page.jobs.length ≤ limit ∧ page.scanCount ≤ scanLimit ∧
        (page.sourceNextCursor = none ↔ page.sourceCursor + page.scanCount = jobs.length + 1) := by
  have hfrom : ∀ left start, (start = 0 ∨ start < jobs.length) → jobs.length - start = left →
      ∃ pages, FollowedPages (fun cursor =>
          listOwnedSessionQueue m owner generation filters cursor limit scanLimit) (start + 1) pages ∧
        pages.flatMap (·.jobs) = (jobs.drop start).filter filters.passes ∧
        ∀ page ∈ pages, page.jobs.length ≤ limit ∧ page.scanCount ≤ scanLimit ∧
          (page.sourceNextCursor = none ↔
            page.sourceCursor + page.scanCount = jobs.length + 1) := by
    intro left
    induction left using Nat.strong_induction_on with
    | _ left ih =>
      intro start hstart _
      obtain ⟨page, count, hpage, _, _, _, hjobs, hlen, hscanned, hcursor, hscan,
        hnext⟩ := h.queuePage filters hlimit hscan hstart
      have hends : page.sourceNextCursor = none ↔
          page.sourceCursor + page.scanCount = jobs.length + 1 := by
        rw [hnext, hcursor, hscan, ite_eq_right_iff]
        simp only [reduceCtorEq, imp_false]
        omega
      rcases Nat.lt_or_ge count jobs.length with hlt | _
      · obtain ⟨pages, hpages, hall, hevery⟩ := ih (jobs.length - count) (by omega) count
          (.inr hlt) rfl
        refine ⟨page :: pages, .more hpage (by rw [hnext, if_pos hlt]) hpages, ?_,
          List.forall_mem_cons.2 ⟨⟨hlen, hscanned, hends⟩, hevery⟩⟩
        rw [List.flatMap_cons, hall, hjobs, ← List.filter_append]
        congr 1
        rw [show jobs.drop count = (jobs.drop start).drop (count - start) by
          rw [List.drop_drop]; congr 1; omega, List.take_append_drop]
      · refine ⟨[page], .last hpage (by rw [hnext, if_neg (by omega)]), ?_,
          List.forall_mem_singleton.2 ⟨hlen, hscanned, hends⟩⟩
        rw [List.flatMap_singleton, hjobs, List.take_of_length_le]
        rw [List.length_drop]
        omega
  exact hfrom _ 0 (.inl rfl) rfl

/-- A job of the generation. -/
def ownedJob (jobId : DurableRecordId) (cluster : String) : RelayJob :=
  { sampleJob with
    jobId, cluster
    metadata := [("owner_session_id", .str "owner"),
      ("owner_session_generation_id", .str "generation")] }

/-- Three jobs, of which the second is of another cluster. -/
def ownedJobs : List RelayJob :=
  [ownedJob ⟨"job_a", by decide⟩ "ares", ownedJob ⟨"job_b", by decide⟩ "zeus",
    ownedJob ⟨"job_c", by decide⟩ "ares"]

/-- The membership of the three jobs. -/
def ownedMembership : MembershipDirectory where
  files := (["1.json", "2.json", "3.json"].zip ownedJobs).map fun file =>
    (file.1, ⟨"owner", some ⟨"generation", by decide⟩, file.2.jobId, file.2.cluster, .queued, 0, 0⟩)
  ordered := by decide +kernel
  jobs id := ownedJobs.find? (·.jobId = id)
  migrated := true

/-- One job a page and two members a scan: the two jobs of the cluster are on a page each. -/
theorem owned_queue_pages_complete_cluster :
    ∃ pages, FollowedPages (fun cursor => listOwnedSessionQueue ownedMembership "owner"
        ⟨"generation", by decide⟩ ⟨some "ares", none, none, true⟩ cursor 1 2) 1 pages ∧
      pages.flatMap (·.jobs) =
        [ownedJob ⟨"job_a", by decide⟩ "ares", ownedJob ⟨"job_c", by decide⟩ "ares"] ∧
      ∀ page ∈ pages, page.jobs.length ≤ 1 ∧ page.scanCount ≤ 2 ∧
        (page.sourceNextCursor = none ↔
          page.sourceCursor + page.scanCount = ownedJobs.length + 1) := by
  have hmembers : Members ownedMembership "owner" ⟨"generation", by decide⟩ ownedJobs :=
    ⟨by decide, rfl, by decide, by decide +kernel, by decide +kernel, by decide +kernel,
      by decide +kernel⟩
  have hpages := owned_queue_pages_complete hmembers ⟨some "ares", none, none, true⟩ le_rfl
    (Nat.le_succ 1)
  rwa [show ownedJobs.filter (QueueFilters.passes ⟨some "ares", none, none, true⟩) =
    [ownedJob ⟨"job_a", by decide⟩ "ares", ownedJob ⟨"job_c", by decide⟩ "ares"] by
      decide +kernel] at hpages

end ClioQueue
