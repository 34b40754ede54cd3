/-
# Purging a quarantined tree

`purge_tree_batch` and `_purge_one_gc_entry` of `clio_relay/queue_gc_storage.py`.
Every removal walks down from the root along the entry that `os.scandir` yields
first, and removes the first entry on that way that is no directory or an empty
one.  Nothing else touches the tree, so the re-stats before a removal agree.
The host is taken to open every directory on the way: one descriptor a level, and
paths as long as the tree is deep.
-/

import Mathlib.Data.Finset.Card
import Mathlib.Data.Finset.Sort
import Mathlib.Data.String.Basic
import ClioQueue.Identifiers
import ClioQueue.Durable.FileTree

namespace ClioQueue

open Durable

/-- `MAX_GC_PURGE_DEPTH`. -/
def maxGcPurgeDepth : Nat := 4096

/-- `MAX_GC_PURGE_SCAN_ENTRIES`. -/
def maxGcPurgeScanEntries : Nat := 10000

/-- The entry that `os.scandir` yields first, which the file system chooses. -/
structure Scandir where
  next : Finset Place → Place → Option String
  mem : ∀ {entries place name}, next entries place = some name → place ++ [name] ∈ entries
  empty : ∀ {entries place}, next entries place = none → ∀ name, place ++ [name] ∉ entries

/-- A quarantined tree: its entries and which of them are directories, links not among them. -/
structure GcTree (root : Place) where
  entries : Finset Place
  isDirectory : Place → Bool
  parent : ∀ {rest name}, root ++ rest ++ [name] ∈ entries →
    root ++ rest ∈ entries ∧ isDirectory (root ++ rest) = true
  directory : isDirectory root = true
  depth : ∀ {rest}, root ++ rest ∈ entries → rest.length ≤ maxGcPurgeDepth

/-- The text of a place. -/
def placeText (place : Place) : String := "/" ++ "/".intercalate place

section

variable (scandir : Scandir) (root : Place) (isDirectory : Place → Bool)

/-- The loop of `_purge_one_gc_entry`, with the entries left to inspect: the entry to remove. -/
def gcCandidate (entries : Finset Place) : Nat → Nat → Place → Except RelayError (Option Place)
  | 0, _, _ => .error (.conflict s!"GC trash traversal exceeded its entry bound: {placeText root}")
  | left + 1, depth, candidate =>
    if candidate ∉ entries then .ok none
    else if !isDirectory candidate then
      if candidate = root then
        .error (.conflict s!"GC trash root is not a regular directory: {placeText root}")
      else .ok (some candidate)
    else
      match scandir.next entries candidate with
      | none => .ok (some candidate)
      | some name =>
        if depth + 1 > maxGcPurgeDepth then
          .error (.conflict s!"GC trash traversal exceeded its depth bound: {placeText root}")
        else gcCandidate entries left (depth + 1) (candidate ++ [name])

/-- `_purge_one_gc_entry`: the entry it removes. -/
def purgeOneGcEntry (entries : Finset Place) : Except RelayError (Option Place) :=
  if root ∉ entries then .ok none
  else if !isDirectory root then
    .error (.conflict s!"GC trash root is not a regular directory: {placeText root}")
  else gcCandidate scandir root isDirectory entries maxGcPurgeScanEntries 0 root

/-- The loop of `purge_tree_batch`: the removed entries in order, and the entries left. -/
def purgeEntries : Nat → Finset Place → Except RelayError (List Place × Finset Place)
  | 0, entries => .ok ([], entries)
  | limit + 1, entries => do
    match ← purgeOneGcEntry scandir root isDirectory entries with
    | none => .ok ([], entries)
    | some candidate =>
      let rest ← purgeEntries limit (entries.erase candidate)
      .ok (candidate :: rest.1, rest.2)

/-- What a call of `purge_tree_batch` removed, whether the root is gone, and what is left. -/
structure PurgedBatch where
  removed : List Place
  empty : Bool
  entries : Finset Place

/-- `purge_tree_batch`. -/
def purgeTreeBatch (entries : Finset Place) (limit : Int) : Except RelayError PurgedBatch :=
  if limit < 0 ∨ limit > 100 then .error (.value "GC purge limit must be between 0 and 100")
  else do
    let purged ← purgeEntries scandir root isDirectory limit.toNat entries
    .ok ⟨purged.1, root ∉ purged.2, purged.2⟩

/-- Calls of `purge_tree_batch` in sequence: the entries they leave. -/
def purgeTreeBatches (entries : Finset Place) : List Int → Except RelayError (Finset Place)
  | [] => .ok entries
  | limit :: limits => do
    let batch ← purgeTreeBatch scandir root isDirectory entries limit
    purgeTreeBatches batch.entries limits

end

variable {root : Place}

namespace GcTree

/-- The entries at or below the root. -/
def inside (tree : GcTree root) : Finset Place := tree.entries.filter (root <+: ·)

variable {tree : GcTree root} {rest : Place}

/-- An entry below a directory is reached through an entry of it. -/
theorem exists_child {more : Place} (hne : more ≠ []) (h : root ++ rest ++ more ∈ tree.entries) :
    ∃ name, root ++ rest ++ [name] ∈ tree.entries := by
  induction more using List.reverseRecOn with
  | nil => exact absurd rfl hne
  | append_singleton more name ih =>
    rcases eq_or_ne more [] with rfl | hmore
    · exact ⟨name, h⟩
    · rw [← List.append_assoc, List.append_assoc root] at h
      exact ih hmore (by rw [List.append_assoc]; exact (tree.parent h).1)

/-- A tree whose root is gone is empty. -/
theorem inside_eq_empty_iff : tree.inside = ∅ ↔ root ∉ tree.entries := by
  rw [inside, Finset.filter_eq_empty_iff]
  refine ⟨fun h hroot => h hroot (List.prefix_refl root), ?_⟩
  rintro hroot _ hmem ⟨rest, rfl⟩
  induction rest using List.reverseRecOn with
  | nil => exact hroot (by simpa using hmem)
  | append_singleton rest name ih =>
    rw [← List.append_assoc] at hmem
    exact ih (tree.parent hmem).1

/-- The tree without an entry that has no entries of its own. -/
def erase (tree : GcTree root) (place : Place) (hleaf : ∀ name, place ++ [name] ∉ tree.entries) :
    GcTree root where
  entries := tree.entries.erase place
  isDirectory := tree.isDirectory
  parent := by
    intro rest name h
    have hmem := Finset.mem_of_mem_erase h
    have hne : root ++ rest ≠ place := by
      rintro rfl
      exact hleaf name hmem
    exact ⟨Finset.mem_erase.2 ⟨hne, (tree.parent hmem).1⟩, (tree.parent hmem).2⟩
  directory := tree.directory
  depth h := tree.depth (Finset.mem_of_mem_erase h)

/-- **One walk.**  It ends at an entry at or below the root that has no entries of its own. -/
theorem gcCandidate_spec (scandir : Scandir) (tree : GcTree root) {left : Nat}
    {rest : Place} (hleft : maxGcPurgeDepth < left + rest.length)
    (hmem : root ++ rest ∈ tree.entries) :
    ∃ place ∈ tree.inside, (∀ name, place ++ [name] ∉ tree.entries) ∧
      gcCandidate scandir root tree.isDirectory tree.entries left rest.length (root ++ rest) =
        .ok (some place) := by
  induction left generalizing rest with
  | zero =>
    have := tree.depth hmem
    omega
  | succ left ih =>
    have hins : root ++ rest ∈ tree.inside :=
      Finset.mem_filter.2 ⟨hmem, List.prefix_append root rest⟩
    rw [gcCandidate, if_neg (not_not.2 hmem)]
    by_cases hdir : tree.isDirectory (root ++ rest) = true
    · rw [hdir, if_neg (by decide)]
      rcases hnext : scandir.next tree.entries (root ++ rest) with _ | name
      · exact ⟨_, hins, scandir.empty hnext, rfl⟩
      · have hchild := scandir.mem hnext
        rw [List.append_assoc] at hchild
        have hdepth := tree.depth hchild
        rw [List.length_append, List.length_singleton] at hdepth
        have hwalk := ih (by rw [List.length_append, List.length_singleton]; omega) hchild
        simpa [Nat.not_lt.2 hdepth, List.append_assoc] using hwalk
    · have hroot : root ++ rest ≠ root := fun h =>
        hdir (by rw [h]; exact tree.directory)
      refine ⟨_, hins, fun name h => hdir (tree.parent h).2, ?_⟩
      rw [if_pos (by simpa using hdir), if_neg hroot]

/-- **One removal**, while the root is there. -/
theorem purgeOneGcEntry_spec (scandir : Scandir) (hroot : root ∈ tree.entries) :
    ∃ place ∈ tree.inside, (∀ name, place ++ [name] ∉ tree.entries) ∧
      purgeOneGcEntry scandir root tree.isDirectory tree.entries = .ok (some place) := by
  have hwalk := gcCandidate_spec scandir tree (show maxGcPurgeDepth <
    maxGcPurgeScanEntries + ([] : Place).length by decide) (by simpa using hroot)
  rw [List.append_nil] at hwalk
  simpa [purgeOneGcEntry, hroot, tree.directory] using hwalk

/-- **A batch.**  It removes as many entries as it may, each before the directory it is in, and
leaves a tree. -/
theorem purgeEntries_spec (scandir : Scandir) (tree : GcTree root) (limit : Nat) :
    ∃ (removed : List Place) (left : GcTree root),
      purgeEntries scandir root tree.isDirectory limit tree.entries = .ok (removed, left.entries) ∧
      left.isDirectory = tree.isDirectory ∧
      left.entries = tree.entries \ removed.toFinset ∧
      removed.length = min limit tree.inside.card ∧
      left.inside.card = tree.inside.card - limit ∧
      (∀ place ∈ removed, place ∈ tree.inside) ∧
      removed.Pairwise fun earlier later => ¬ earlier <+: later := by
  induction limit generalizing tree with
  | zero => exact ⟨[], tree, rfl, rfl, by simp, by simp, rfl, by simp, .nil⟩
  | succ limit ih =>
    by_cases hroot : root ∈ tree.entries
    · obtain ⟨place, hins, hleaf, hone⟩ := purgeOneGcEntry_spec scandir hroot
      obtain ⟨removed, left, hrun, hsame, hleft, hlen, hcard, hall, horder⟩ :=
        ih (tree.erase place hleaf)
      have herase : (tree.erase place hleaf).inside = tree.inside.erase place :=
        Finset.filter_erase ..
      have hpos := Finset.card_pos.2 ⟨place, hins⟩
      rw [herase, Finset.card_erase_of_mem hins] at hlen hcard
      refine ⟨place :: removed, left, ?_, hsame, ?_, ?_, by omega, ?_, ?_⟩
      · have hrest : purgeEntries scandir root tree.isDirectory limit (tree.entries.erase place) =
            .ok (removed, left.entries) := hrun
        simp [purgeEntries, hone, hrest, bind, Except.bind]
      · rw [hleft, List.toFinset_cons, Finset.sdiff_insert]
        exact Finset.erase_sdiff_comm ..
      · rw [List.length_cons, hlen]
        omega
      · refine List.forall_mem_cons.2 ⟨hins, fun p hp => ?_⟩
        exact Finset.mem_of_mem_erase (herase ▸ hall p hp)
      · refine List.pairwise_cons.2 ⟨?_, horder⟩
        rintro later hlater ⟨_, rfl⟩
        obtain ⟨hne, hmem⟩ := Finset.mem_erase.1 (Finset.mem_filter.1 (hall _ hlater)).1
        obtain ⟨_, rfl⟩ := (Finset.mem_filter.1 hins).2
        obtain ⟨name, hname⟩ := exists_child (by rintro rfl; simp at hne) hmem
        exact hleaf name hname
    · have hnone : tree.inside.card = 0 := by rw [inside_eq_empty_iff.2 hroot, Finset.card_empty]
      refine ⟨[], tree, ?_, rfl, by simp, by simp [hnone], by omega, by simp, .nil⟩
      rw [purgeEntries, purgeOneGcEntry, if_pos hroot]
      rfl

end GcTree

/-- **Purging is exact.**  A call with a limit between 1 and 100 removes that many entries or
all of them, none outside the tree and none before what is in it, reports the tree empty exactly
when its root is gone, and leaves a tree; after as many calls as there were entries the root is
gone. -/
theorem purge_tree_batches_exact (scandir : Scandir) {root : Place} (tree : GcTree root) :
    (∀ limit : Int, 1 ≤ limit → limit ≤ 100 → ∃ (batch : PurgedBatch) (left : GcTree root),
      purgeTreeBatch scandir root tree.isDirectory tree.entries limit = .ok batch ∧
      batch.entries = left.entries ∧ left.isDirectory = tree.isDirectory ∧
      batch.removed.length = min limit.toNat tree.inside.card ∧
      batch.entries = tree.entries \ batch.removed.toFinset ∧
      (∀ place ∈ batch.removed, place ∈ tree.inside) ∧
      (batch.removed.Pairwise fun earlier later => ¬ earlier <+: later) ∧
      (batch.empty = true ↔ root ∉ batch.entries)) ∧
    ∀ limits : List Int, (∀ limit ∈ limits, 1 ≤ limit ∧ limit ≤ 100) → ∃ left : GcTree root,
      purgeTreeBatches scandir root tree.isDirectory tree.entries limits = .ok left.entries ∧
      left.inside.card ≤ tree.inside.card - limits.length ∧
      (tree.inside.card ≤ limits.length → root ∉ left.entries) := by
  have hbatch : ∀ (tree : GcTree root) {limit : Int}, 1 ≤ limit → limit ≤ 100 →
      purgeTreeBatch scandir root tree.isDirectory tree.entries limit = (do
        let purged ← purgeEntries scandir root tree.isDirectory limit.toNat tree.entries
        .ok ⟨purged.1, root ∉ purged.2, purged.2⟩) :=
    fun tree limit h1 h100 => if_neg (by omega)
  refine ⟨fun limit h1 h100 => ?_, fun limits hlim => ?_⟩
  · obtain ⟨removed, left, hrun, hsame, hleft, hlen, -, hall, horder⟩ :=
      tree.purgeEntries_spec scandir limit.toNat
    refine ⟨⟨removed, root ∉ left.entries, left.entries⟩, left, ?_, rfl, hsame, hlen, hleft,
      hall, horder, by simp⟩
    rw [hbatch tree h1 h100, hrun]
    rfl
  · have hrun : ∃ left : GcTree root,
        purgeTreeBatches scandir root tree.isDirectory tree.entries limits = .ok left.entries ∧
        left.inside.card ≤ tree.inside.card - limits.length := by
      induction limits generalizing tree with
      | nil => exact ⟨tree, rfl, Nat.le_refl _⟩
      | cons limit limits ih =>
        have hlimit := hlim limit (.head _)
        obtain ⟨removed, next, hnext, hsame, -, -, _, -, -⟩ :=
          tree.purgeEntries_spec scandir limit.toNat
        obtain ⟨left, hleft, hfewer⟩ := ih next fun l h => hlim l (.tail _ h)
        refine ⟨left, ?_, by rw [List.length_cons]; omega⟩
        rw [purgeTreeBatches, hbatch tree hlimit.1 hlimit.2, hnext, ← hleft, hsame]
        rfl
    obtain ⟨left, hleft, hfewer⟩ := hrun
    refine ⟨left, hleft, hfewer, fun hlen => ?_⟩
    rw [← GcTree.inside_eq_empty_iff, ← Finset.card_eq_zero]
    omega

/-- A directory that lists its names in order. -/
def sortedScandir : Scandir where
  next entries place := ((entries.filter fun p => p.dropLast = place ∧ p ≠ []).image
    fun p => p.getLastD "").sort.head?
  mem := by
    intro entries place name h
    obtain ⟨p, hp, rfl⟩ := Finset.mem_image.1 ((Finset.mem_sort _).1 (List.mem_of_mem_head? h))
    obtain ⟨hmem, rfl, hne⟩ := Finset.mem_filter.1 hp
    rw [List.getLastD_eq_getLast?, List.getLast?_eq_some_getLast hne, Option.getD_some,
      List.dropLast_append_getLast hne]
    exact hmem
  empty := by
    intro entries place h name hmem
    have hname : name ∈ ((entries.filter fun p => p.dropLast = place ∧ p ≠ []).image
        fun p => p.getLastD "").sort := by
      rw [Finset.mem_sort, Finset.mem_image]
      exact ⟨_, Finset.mem_filter.2 ⟨hmem, by simp⟩, by simp⟩
    rw [List.head?_eq_none_iff.1 h] at hname
    cases hname

/-- A quarantined directory with a directory, a file in it and a file beside it. -/
def sampleTree : GcTree ["trash"] where
  entries := {["trash"], ["trash", "d"], ["trash", "d", "f"], ["trash", "g"]}
  isDirectory place := place = ["trash"] || place = ["trash", "d"]
  parent := by
    intro rest name h
    simp only [Finset.mem_insert, Finset.mem_singleton, List.cons_append, List.nil_append,
      List.cons.injEq, true_and] at h
    rcases h with h | h | h | h
    all_goals
      rcases rest with _ | ⟨x, _ | ⟨y, rest⟩⟩ <;> simp at h
    · simp
    · simp [h.1]
    · simp
  directory := rfl
  depth := by
    intro rest h
    have hlen : (["trash"] ++ rest).length ≤ 3 := by
      simp only [Finset.mem_insert, Finset.mem_singleton] at h
      rcases h with h | h | h | h <;> simp [h]
    simp only [List.length_append, List.length_singleton] at hlen
    exact le_trans (by omega) (show 2 ≤ maxGcPurgeDepth by decide)

/-- Four calls empty the tree of four entries. -/
theorem purge_tree_batches_exact_sample : ∃ left : GcTree ["trash"],
    purgeTreeBatches sortedScandir ["trash"] sampleTree.isDirectory sampleTree.entries [1, 1, 100, 1] =
      .ok left.entries ∧ ["trash"] ∉ left.entries := by
  obtain ⟨left, hrun, -, hgone⟩ :=
    (purge_tree_batches_exact sortedScandir sampleTree).2 [1, 1, 100, 1] (by decide)
  exact ⟨left, hrun, hgone (by decide)⟩

end ClioQueue
