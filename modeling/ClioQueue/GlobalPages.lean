/-
# Pages over a global order

`_read_global_order_page` of `clio_relay/queue_order_index.py` and the listings
that use it: `list_jobs_page` and `scan_jobs` of `clio_relay/queue_jobs.py`,
`list_gateway_sessions_page` and `scan_gateway_sessions` of
`clio_relay/queue_gateways.py`.

A page takes no lock, so each of its reads may see a later store.  A `View` says
which store each read sees; a page of a store that nobody changes is the page of a
constant view.
-/

import ClioQueue.Gateways

namespace ClioQueue

open Durable

/-- `MAX_RESPONSE_PAGE_RECORDS`. -/
def maxResponsePageRecords : Nat := 500

/-! ### Reads without a lock -/

/-- The reads of a page. -/
inductive PageRead where
  | migration
  | head
  | entry (sequence : Nat)
  | mapping (sequence : Nat)
  | record (sequence : Nat)
  deriving DecidableEq

/-- The place of a read in the order in which a page makes them. -/
def PageRead.rank : PageRead → Nat
  | .migration => 0
  | .head => 1
  | .entry sequence => 3 * sequence + 2
  | .mapping sequence => 3 * sequence + 3
  | .record sequence => 3 * sequence + 4

/-- The store that each read of a page sees. -/
abbrev View : Type := PageRead → Store

/-- What a program that only looks finds in a store. -/
def peek {α : Type} (m : Op α) (s : Store) : Except RelayError α := (m.run s ⟨0, 0⟩).result

/-! ### Pages -/

/-- A family of records with a global order: where its records are and what they are named. -/
structure OrderedFamily (α : Type) where
  family : GlobalFamily
  find : Store → DurableRecordId → Option α
  identity : α → DurableRecordId

/-- The jobs. -/
def orderedJobs : OrderedFamily RelayJob where
  family := .jobs
  find s jobId := s.read (.job jobId)
  identity := RelayJob.jobId

/-- The gateway sessions. -/
def orderedGatewaySessions : OrderedFamily GatewaySession where
  family := .gatewaySessions
  find s sessionId := s.read (.gatewaySession sessionId)
  identity := GatewaySession.sessionId

/-- One page: its records, the cursor of the next page and the head of the order. -/
structure Page (α : Type) where
  records : List α
  nextCursor : Option Nat
  total : Nat

/-- `validate_record_cursor`. -/
def validateRecordCursor (cursor : Int) : Except RelayError Nat :=
  if cursor < 1 then .error (.value "cursor must be greater than or equal to 1")
  else .ok cursor.toNat

/-- `validate_response_page_limit`. -/
def validateResponsePageLimit (limit : Int) : Except RelayError Nat :=
  if limit < 1 ∨ (maxResponsePageRecords : Int) < limit then
    .error (.value s!"limit must be between 1 and {maxResponsePageRecords}")
  else .ok limit.toNat

section

variable {α : Type} (F : OrderedFamily α)

/-- One position of `_read_global_order_page`; a position without an entry or without a record
is passed over. -/
def readGlobalPosition (view : View) (sequence : Nat) : Except RelayError (Option α) := do
  let entry ← peek (read (.globalEntry F.family sequence) >>= readGlobalRecord)
    (view (.entry sequence))
  match entry with
  | none => pure none
  | some entry =>
    if entry.sequence ≠ sequence then
      .error (.conflict s!"global-order sequence identity mismatch: {sequence}")
    else do
      let mapping ← peek (read (.globalById F.family entry.recordId) >>= readGlobalRecord)
        (view (.mapping sequence))
      if mapping ≠ some entry then
        .error (.conflict s!"global-order reverse mapping mismatch: {entry.recordId}")
      else
        match F.find (view (.record sequence)) entry.recordId with
        | none => pure none
        | some record =>
          if F.identity record ≠ entry.recordId then
            .error (.conflict s!"global-order target identity mismatch: {entry.recordId}")
          else pure (some record)

/-- The loop of `_read_global_order_page`. -/
def readGlobalPositions (view : View) (predicate : α → Bool) :
    List Nat → Except RelayError (List α)
  | [] => pure []
  | sequence :: sequences => do
    let found ← readGlobalPosition F view sequence
    let rest ← readGlobalPositions view predicate sequences
    pure ((found.filter predicate).toList ++ rest)

/-- `_read_global_order_page`. -/
def readGlobalOrderPage (view : View) (cursor limit : Int) (predicate : α → Bool) :
    Except RelayError (Page α) := do
  let cursor ← validateRecordCursor cursor
  let limit ← validateResponsePageLimit limit
  peek requireIndexMigrationComplete (view .migration)
  let latest ← peek (readGlobalHead F.family) (view .head)
  if latest < cursor then pure ⟨[], none, latest⟩
  else do
    let stop := min (latest + 1) (cursor + limit)
    let records ← readGlobalPositions F view predicate (List.range' cursor (stop - cursor))
    pure ⟨records, if stop ≤ latest then some stop else none, latest⟩

/-- **A page that is returned**, taken apart. -/
theorem readGlobalOrderPage_ok {F : OrderedFamily α} {view : View} {cursor limit : Int}
    {predicate : α → Bool} {page : Page α}
    (h : readGlobalOrderPage F view cursor limit predicate = .ok page) :
    1 ≤ cursor ∧ 1 ≤ limit ∧ limit ≤ maxResponsePageRecords ∧
      peek (readGlobalHead F.family) (view .head) = .ok page.total ∧
      (page.total < cursor.toNat ∧ page.records = [] ∧ page.nextCursor = none ∨
        cursor.toNat ≤ page.total ∧
          readGlobalPositions F view predicate (List.range' cursor.toNat
            (min (page.total + 1) (cursor.toNat + limit.toNat) - cursor.toNat)) = .ok page.records ∧
          page.nextCursor = if min (page.total + 1) (cursor.toNat + limit.toNat) ≤ page.total then
            some (min (page.total + 1) (cursor.toNat + limit.toNat)) else none) := by
  unfold readGlobalOrderPage at h
  obtain ⟨_, hstart, h⟩ := except_bind_ok h
  obtain ⟨_, hsize, h⟩ := except_bind_ok h
  obtain ⟨_, -, h⟩ := except_bind_ok h
  obtain ⟨_, hlat, h⟩ := except_bind_ok h
  unfold validateRecordCursor at hstart
  unfold validateResponsePageLimit at hsize
  split at hstart
  · cases hstart
  split at hsize
  · cases hsize
  cases hstart
  cases hsize
  refine ⟨by omega, by omega, by omega, ?_⟩
  split at h
  · next hlt =>
      cases h
      exact ⟨hlat, .inl ⟨hlt, rfl, rfl⟩⟩
  · next hle =>
      obtain ⟨records, hrecs, h⟩ := except_bind_ok h
      cases h
      exact ⟨hlat, .inr ⟨Nat.le_of_not_lt hle, hrecs, rfl⟩⟩

end

/-! ### Jobs -/

/-- The filters of `list_jobs_page`. -/
structure JobFilter where
  cluster : Option String := none
  state : Option JobState := none
  kind : Option JobKind := none
  includeTerminal : Bool := true
  deriving DecidableEq

/-- `matches`. -/
def JobFilter.matches (filter : JobFilter) (job : RelayJob) : Bool :=
  filter.cluster.all (· == job.cluster) && filter.state.all (· == job.state) &&
    filter.kind.all (· == job.kind) && (filter.includeTerminal || !job.state.terminal)

/-- `list_jobs_page`. -/
def listJobsPage (view : View) (cursor limit : Int) (filter : JobFilter) :
    Except RelayError (Page RelayJob) :=
  readGlobalOrderPage orderedJobs view cursor limit filter.matches

/-- The loop of `scan_jobs`: page `page` reads the store through `views page`. -/
def scanJobsFrom (views : Nat → View) (page cursor remaining : Nat) :
    Except RelayError (List RelayJob × Bool) :=
  if remaining = 0 then pure ([], true)
  else do
    let pageLimit := min maxResponsePageRecords remaining
    let found ← listJobsPage (views page) cursor pageLimit {}
    match found.nextCursor with
    | none => pure (found.records, false)
    | some next => do
      let rest ← scanJobsFrom views (page + 1) next (remaining - pageLimit)
      pure (found.records ++ rest.1, rest.2)
  termination_by remaining
  decreasing_by
    unfold maxResponsePageRecords
    omega

/-- `scan_jobs`. -/
def scanJobs (views : Nat → View) (limit : Int) : Except RelayError (List RelayJob × Bool) :=
  if limit < 1 then .error (.value "job scan limit must be at least 1")
  else scanJobsFrom views 0 1 limit.toNat

/-! ### Gateway sessions -/

/-- The filters of `list_gateway_sessions_page`. -/
structure GatewayFilter where
  cluster : Option String := none
  state : Option GatewaySessionState := none
  deriving DecidableEq

/-- `matches`. -/
def GatewayFilter.matches (filter : GatewayFilter) (session : GatewaySession) : Bool :=
  filter.cluster.all (· == session.cluster) && filter.state.all (· == session.state)

end ClioQueue
