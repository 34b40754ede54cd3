/-
# Accounting a storage tree

`scan_tree` and `_stable_tree_snapshot` of `clio_relay/storage_policy.py`.

A tree is what the scan finds on the disk, each file and link with its logical size and with whom
its bytes are accounted to.  The scan keeps a stack of directories and stops at its bounds; one
that returns has counted every file and, in the spool, every link.
-/

import ClioQueue.Durable.Holdings
import ClioQueue.StorageReservations

namespace ClioQueue

open Durable

/-! ### Trees -/

/-- To whom a file belongs: a job, the reservation ledger, or none of them. -/
inductive StorageOwner where
  | job (jobId : DurableRecordId)
  | ledger
  | other
  deriving DecidableEq

/-- A directory entry. -/
inductive StorageEntry where
  | file (owner : StorageOwner) (bytes : Nat)
  | link (owner : StorageOwner) (bytes : Nat)
  | directory (entries : List StorageEntry)
  | special

namespace StorageEntry

mutual

/-- The files and links below an entry, each with its owner and size. -/
def holdings : StorageEntry → List (StorageOwner × Nat)
  | .file owner bytes => [(owner, bytes)]
  | .link owner bytes => [(owner, bytes)]
  | .directory entries => holdingsAll entries
  | .special => []

/-- The files and links below some entries. -/
def holdingsAll : List StorageEntry → List (StorageOwner × Nat)
  | [] => []
  | entry :: rest => holdings entry ++ holdingsAll rest

end

theorem holdingsAll_append (a b : List StorageEntry) :
    holdingsAll (a ++ b) = holdingsAll a ++ holdingsAll b := by
  induction a with
  | nil => rfl
  | cons entry a ih => rw [List.cons_append, holdingsAll, holdingsAll, ih, List.append_assoc]

end StorageEntry

/-! ### The scan -/

/-- `link_policy`. -/
inductive LinkPolicy where
  | reject
  | count
  deriving DecidableEq

/-- The counters of the scan and its stack of directories with their depths. -/
structure StorageScan where
  totalBytes : Nat
  fileCount : Nat
  linkCount : Nat
  directoryCount : Nat
  entryCount : Nat
  stack : List (List StorageEntry × Nat)

section

variable (limits : StorageLimits) (linkPolicy : LinkPolicy) (root : String)

/-- `storage tree exceeds the configured accounting byte limit`. -/
def accountBytes (scan : StorageScan) : Except StorageError StorageScan :=
  if scan.totalBytes > limits.maxScanAccountedBytes then
    .error (.policy .scanByteLimit "storage tree exceeds the configured accounting byte limit"
      [("root", .str root), ("max_accounted_bytes", .num limits.maxScanAccountedBytes "")])
  else .ok scan

/-- One entry of a directory. -/
def scanEntry (depth : Nat) (entry : StorageEntry) (before : StorageScan) :
    Except StorageError StorageScan :=
  let scan := { before with entryCount := before.entryCount + 1 }
  if scan.entryCount > limits.maxScanEntries then
    .error (.policy .scanEntryLimit "storage tree exceeds the configured entry scan limit"
      [("root", .str root), ("max_entries", .num limits.maxScanEntries "")])
  else
    match entry with
    | .link _ bytes =>
      if linkPolicy = .reject then
        .error (.policy .scanUnsafeEntry "storage tree contains a link or reparse point"
          [("root", .str root)])
      else
        accountBytes limits root
          { scan with linkCount := scan.linkCount + 1, totalBytes := scan.totalBytes + bytes }
    | .directory entries =>
      if depth + 1 > limits.maxScanDepth then
        .error (.policy .scanDepthLimit "storage tree exceeds the configured depth limit"
          [("root", .str root), ("max_depth", .num limits.maxScanDepth "")])
      else
        .ok { scan with
              directoryCount := scan.directoryCount + 1
              stack := (entries, depth + 1) :: scan.stack }
    | .file _ bytes =>
      accountBytes limits root
        { scan with fileCount := scan.fileCount + 1, totalBytes := scan.totalBytes + bytes }
    | .special =>
      .error (.policy .scanUnsafeEntry "storage tree contains a non-regular entry"
        [("root", .str root)])

/-- The entries of one directory. -/
def scanDirectory (depth : Nat) : List StorageEntry → StorageScan → Except StorageError StorageScan
  | [], scan => .ok scan
  | entry :: rest, scan =>
    match scanEntry limits linkPolicy root depth entry scan with
    | .error error => .error error
    | .ok next => scanDirectory depth rest next

/-- `while stack`.  Each directory but the root has been counted as an entry, so that
`maxScanEntries + 1` visits are enough. -/
def scanStack : Nat → StorageScan → Except StorageError StorageScan
  | visits, scan =>
    match scan.stack, visits with
    | [], _ => .ok scan
    | _ :: _, 0 =>
      .error (.policy .scanEntryLimit "storage tree exceeds the configured entry scan limit"
        [("root", .str root), ("max_entries", .num limits.maxScanEntries "")])
    | (entries, depth) :: stack, visits + 1 =>
      match scanDirectory limits linkPolicy root depth entries { scan with stack } with
      | .error error => .error error
      | .ok next => scanStack visits next

/-- `scan_tree`. -/
def scanTree (entries : List StorageEntry) : Except StorageError TreeUsage :=
  match scanStack limits linkPolicy root (limits.maxScanEntries + 1)
    { totalBytes := 0, fileCount := 0, linkCount := 0, directoryCount := 1, entryCount := 0,
      stack := [(entries, 0)] } with
  | .error error => .error error
  | .ok scan =>
    .ok { root, bytes := scan.totalBytes, files := scan.fileCount, links := scan.linkCount,
          directories := scan.directoryCount, entries := scan.entryCount }

/-- What the scan has counted and has still to count. -/
def StorageScan.accounted (scan : StorageScan) : Nat :=
  scan.totalBytes + (scan.stack.map fun level => held (StorageEntry.holdingsAll level.1)).sum

variable {limits linkPolicy root}
  {entries : List StorageEntry} {depth : Nat} {next scan : StorageScan}

theorem accountBytes_ok (h : accountBytes limits root scan = .ok next) : next = scan := by
  unfold accountBytes at h
  split_ifs at h
  cases h
  rfl

theorem scanEntry_ok {entry : StorageEntry}
    (h : scanEntry limits linkPolicy root depth entry scan = .ok next) :
    next.accounted = scan.accounted + held entry.holdings := by
  unfold scanEntry at h
  cases entry with
  | file | link =>
    dsimp only at h
    split_ifs at h
    rw [accountBytes_ok h]
    simp only [StorageScan.accounted, StorageEntry.holdings, held_cons, held_nil]
    omega
  | directory =>
    dsimp only at h
    split_ifs at h
    cases h
    simp only [StorageScan.accounted, StorageEntry.holdings, List.map_cons, List.sum_cons]
    omega
  | special =>
    dsimp only at h
    split_ifs at h

theorem scanDirectory_ok (h : scanDirectory limits linkPolicy root depth entries scan = .ok next) :
    next.accounted = scan.accounted + held (StorageEntry.holdingsAll entries) := by
  induction entries generalizing scan with
  | nil =>
    cases h
    rfl
  | cons entry rest ih =>
    unfold scanDirectory at h
    split at h
    · cases h
    · rename_i _ hmid
      rw [ih h, scanEntry_ok hmid, StorageEntry.holdingsAll, held_append]
      omega

/-- A scan that finishes within its visits returns the bytes of what it has seen and of what its
stack still holds. -/
theorem scanStack_ok {visits : Nat} (h : scanStack limits linkPolicy root visits scan = .ok next) :
    next.totalBytes = scan.accounted := by
  induction visits generalizing scan with
  | zero =>
    unfold scanStack at h
    split at h
    · rename_i hstack
      cases h
      simp [StorageScan.accounted, hstack]
    · cases h
    · rename_i hvisits
      cases hvisits
  | succ visits ih =>
    unfold scanStack at h
    split at h
    · rename_i hstack
      cases h
      simp [StorageScan.accounted, hstack]
    · rename_i hvisits
      cases hvisits
    · rename_i _ _ _ _ hstack hvisits
      cases hvisits
      split at h
      · cases h
      · rename_i _ hmid
        rw [ih h, scanDirectory_ok hmid]
        simp only [StorageScan.accounted, hstack, List.map_cons, List.sum_cons]
        omega

/-- **A scan that returns has counted every byte.** -/
theorem scanTree_ok {usage : TreeUsage} (h : scanTree limits linkPolicy root entries = .ok usage) :
    usage.bytes = held (StorageEntry.holdingsAll entries) := by
  unfold scanTree at h
  split at h
  · cases h
  · rename_i _ hscan
    cases h
    have hbytes := scanStack_ok hscan
    simpa [StorageScan.accounted] using hbytes

end

end ClioQueue
