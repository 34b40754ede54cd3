/-
# Samples of the snapshots a bridge accepts

`observeSnapshots` gives a bridge one notification for each snapshot of a list, numbered in
order.  A fresh bridge accepts a list when each snapshot is valid and advances on the one
before, and each line it writes for a new event is within the limit
(`observeSnapshots_fresh_iff`).  Two things can go wrong in a sample of an accepted list: the
relapse of `NativeTransitions`, and a line that grows because it counts more skipped events.
-/

import ClioQueue.Jarvis.NativeTransitions
import ClioQueue.Jarvis.ProgressBridge

namespace ClioQueue.Jarvis

open Durable Wire Runner

variable {φ : Type}

/-! ### What a list of snapshots shows -/

section Snapshots

/-- A later snapshot of one execution, under a table of the states that follow each state. -/
structure SnapshotAdvances (table : ExecutionState → List ExecutionState)
    (old new : ExecutionProgress φ) : Prop where
  executionId : old.executionId = new.executionId
  kept : old.executionState = new.executionState → old.terminal = new.terminal
  reached : old.executionState ≠ new.executionState → new.executionState ∈ table old.executionState
  ended : old.executionState ≠ new.executionState → old.terminal = true →
    old.executionState = .scripted
  progress : ProgressAdvances (fun _ _ => True) old new

/-- Where a package was seen last. -/
def lastSeen (old : Option (ExecutionProgress φ)) (packageId : String) :
    Option (PackageProgress φ) :=
  old.bind fun snapshot => packageOf snapshot packageId

/-- The event that a package shows anew in the snapshot of a number. -/
def newEvent (number : Nat) (old : Option (ExecutionProgress φ)) (snapshot : ExecutionProgress φ)
    (package : PackageProgress φ) : Option (NativeCandidate φ) :=
  package.latest.bind fun latest =>
    if ((lastSeen old package.packageId).bind PackageProgress.latest).map ProgressEvent.sequence =
        some latest.sequence then none
    else some
      { snapshot := snapshot, package := package, event := latest, transportSequence := number,
        skippedEventCount := package.eventCount -
          ((lastSeen old package.packageId).map PackageProgress.eventCount).getD 0 - 1 }

/-- The events that a list of snapshots shows, in order. -/
def newEvents : Nat → Option (ExecutionProgress φ) → List (ExecutionProgress φ) →
    List (NativeCandidate φ)
  | _, _, [] => []
  | number, old, snapshot :: snapshots =>
    snapshot.packages.filterMap (newEvent (number + 1) old snapshot) ++
      newEvents (number + 1) (some snapshot) snapshots

variable [PyFloat φ] [RelayHmac]

/-- The line of an event is within the limit. -/
def Fits (config : BridgeConfig) (sequence : Nat) (candidate : NativeCandidate φ) : Prop :=
  byteLength (Bridge.payload config sequence (Bridge.nativeRecord config candidate false)) ≤
    maxNotificationBytes

/-- The lines of a list of events, after some number of lines, are within the limit. -/
def LinesFit (config : BridgeConfig) : Nat → List (NativeCandidate φ) → Prop
  | _, [] => True
  | sequence, candidate :: candidates =>
    Fits config (sequence + 1) candidate ∧ LinesFit config (sequence + 1) candidates

theorem linesFit_append {config : BridgeConfig} {candidates later : List (NativeCandidate φ)}
    {sequence : Nat} :
    LinesFit config sequence (candidates ++ later) ↔
      LinesFit config sequence candidates ∧
        LinesFit config (sequence + candidates.length) later := by
  induction candidates generalizing sequence with
  | nil => simp [LinesFit]
  | cons candidate candidates ih =>
    have hlen : sequence + 1 + candidates.length = sequence + (candidate :: candidates).length := by
      rw [List.length_cons]
      omega
    rw [List.cons_append, LinesFit, LinesFit, ih, hlen, and_assoc]

/-- The snapshots of a list of values. -/
def snapshotsOf (values : List (Value (Number φ))) : List (ExecutionProgress φ) :=
  values.filterMap fun value => (validatedNativeProgressSnapshot value).toOption

/-- A snapshot of the pipeline that was asked for. -/
def IsSnapshotFor (config : BridgeConfig) (value : Value (Number φ)) : Prop :=
  ∃ snapshot, validatedNativeProgressSnapshot value = .ok snapshot ∧
    snapshot.pipelineId = config.expectedPipelineId

end Snapshots

namespace Bridge

/-! ### One snapshot -/

/-- A bridge whose last snapshot is `old`, the notification of that number. -/
structure Follows (number : Nat) (old : Option (ExecutionProgress φ)) (bridge : Bridge φ) : Prop where
  mode : bridge.nativeMode ≠ some false
  number : bridge.nativeTransportSequence = number
  bound : bridge.boundExecutionId = old.map ExecutionProgress.executionId
  execution : bridge.nativeExecution =
    old.map fun snapshot => (snapshot.executionState, snapshot.terminal)
  names : ∀ id, bridge.nativePackageNames.lookup id =
    (lastSeen old id).map PackageProgress.packageName
  counts : ∀ id, bridge.nativePackageEventCounts.lookup id =
    (lastSeen old id).map PackageProgress.eventCount
  sequences : ∀ id, bridge.nativePackageSequences.lookup id =
    ((lastSeen old id).bind PackageProgress.latest).map ProgressEvent.sequence

theorem follows_fresh : Follows 0 none (fresh : Bridge φ) where
  mode h := by cases h
  number := rfl
  bound := rfl
  execution := rfl
  names _ := rfl
  counts _ := rfl
  sequences _ := rfl

/-- The bridge after the state of a snapshot. -/
def sawState (snapshot : ExecutionProgress φ) (bridge : Bridge φ) : Bridge φ :=
  { bridge with
    nativeExecution := some (snapshot.executionState, snapshot.terminal)
    nativeScriptedActivationObserved := bridge.nativeScriptedActivationObserved ||
      bridge.nativeExecution.any fun previous => previous.1 = .scripted &&
        snapshot.executionState ≠ .scripted && snapshot.executionState ≠ .failed }

/-- The rules on the state of a snapshot. -/
def StateFollows (snapshot : ExecutionProgress φ) (bridge : Bridge φ) : Prop :=
  ∀ state terminal, bridge.nativeExecution = some (state, terminal) →
    (state = snapshot.executionState → terminal = snapshot.terminal) ∧
    (state ≠ snapshot.executionState → snapshot.executionState ∈ reachableStates state) ∧
    (state ≠ snapshot.executionState → terminal = true → state = .scripted)

/-- The state of an execution is accepted exactly if it follows the state that was sampled
before. -/
theorem observeNativeExecutionLifecycle_eq_ok {snapshot : ExecutionProgress φ}
    {bridge bridge' : Bridge φ} :
    observeNativeExecutionLifecycle snapshot bridge = .ok bridge' ↔
      StateFollows snapshot bridge ∧ bridge' = sawState snapshot bridge := by
  unfold observeNativeExecutionLifecycle StateFollows
  rcases hprev : bridge.nativeExecution with _ | previous
  · simp [sawState, hprev, eq_comm]
  · obtain ⟨state, terminal⟩ := previous
    dsimp only
    split_ifs with hst
    · simp only [bind_eq_ok, ensure_eq_ok, pure_eq_ok, decide_eq_true_eq, exists_const]
      have hsaw : snapshot.terminal = terminal → bridge = sawState snapshot bridge := by
        rintro rfl
        subst hst
        obtain ⟨⟩ := bridge
        cases hprev
        simp [sawState]
      constructor
      · rintro ⟨hterm, rfl⟩
        refine ⟨?_, hsaw hterm⟩
        rintro _ _ ⟨⟩
        exact ⟨fun _ => hterm.symm, fun h => absurd hst.symm h, fun h => absurd hst.symm h⟩
      · rintro ⟨hfollows, rfl⟩
        have hterm := ((hfollows _ _ rfl).1 hst.symm).symm
        exact ⟨hterm, hsaw hterm⟩
    · simp only [bind_eq_ok, ensure_eq_ok, pure_eq_ok, decide_eq_true_eq, exists_const,
        Bool.or_eq_true, Bool.not_eq_true']
      have hsaw : { bridge with
          nativeScriptedActivationObserved := bridge.nativeScriptedActivationObserved ||
            (state = .scripted && snapshot.executionState ≠ .failed)
          nativeExecution := some (snapshot.executionState, snapshot.terminal) } =
          sawState snapshot bridge := by
        rw [sawState, hprev]
        by_cases hscripted : state = .scripted
        · subst hscripted
          simp [hst]
        · simp [hscripted]
      rw [hsaw]
      constructor
      · rintro ⟨hreach, hended, rfl⟩
        refine ⟨?_, rfl⟩
        rintro _ _ ⟨⟩
        refine ⟨fun h => absurd h.symm hst, fun _ => hreach, fun _ hterm => ?_⟩
        exact hended.resolve_left (by simp [hterm])
      · rintro ⟨hfollows, rfl⟩
        obtain ⟨-, hreach, hended⟩ := hfollows _ _ rfl
        have hne : state ≠ snapshot.executionState := fun h => hst h.symm
        refine ⟨hreach hne, ?_, rfl⟩
        rcases terminal with _ | _
        · exact Or.inl rfl
        · exact Or.inr (hended hne rfl)

variable [PyFloat φ] [RelayHmac]
  {bridge bridge' : Bridge φ} {config : BridgeConfig} {snapshot : ExecutionProgress φ}
  {values : List (Value (Number φ))} {package : PackageProgress φ}

/-- The bridge after a package, with the event that is new. -/
def sawPackage (config : BridgeConfig) (package : PackageProgress φ)
    (candidate : Option (NativeCandidate φ)) (bridge : Bridge φ) : Bridge φ :=
  let counted : Bridge φ :=
    { bridge with
      nativePackageNames := assign bridge.nativePackageNames package.packageId package.packageName
      nativePackageEventCounts :=
        assign bridge.nativePackageEventCounts package.packageId package.eventCount }
  match candidate with
  | none => counted
  | some c =>
    { counted with
      nativePackageSequences := assign bridge.nativePackageSequences package.packageId c.event.sequence
      nativeLatestCandidates := assign bridge.nativeLatestCandidates package.packageId c
      sidecar := bridge.sidecar ++ [payload config (bridge.sidecarSequence + 1) (nativeRecord config c false)]
      sidecarSequence := bridge.sidecarSequence + 1 }

/-- How many events of a package the bridge has been told of. -/
def seenCount (bridge : Bridge φ) (packageId : String) : Nat :=
  (bridge.nativePackageEventCounts.lookup packageId).getD 0

/-- The event of a package that the bridge has not appended. -/
def unseenEvent (snapshot : ExecutionProgress φ) (bridge : Bridge φ) (package : PackageProgress φ) :
    Option (NativeCandidate φ) :=
  package.latest.bind fun latest =>
    if bridge.nativePackageSequences.lookup package.packageId = some latest.sequence then none
    else some
      { snapshot := snapshot, package := package, event := latest,
        transportSequence := bridge.nativeTransportSequence,
        skippedEventCount := package.eventCount - bridge.seenCount package.packageId - 1 }

/-- The rules on a package of a snapshot. -/
structure PackageFollows (bridge : Bridge φ) (package : PackageProgress φ) : Prop where
  name : ∀ name, bridge.nativePackageNames.lookup package.packageId = some name →
    name = package.packageName
  count : bridge.seenCount package.packageId ≤ package.eventCount
  event : ∀ latest ∈ package.latest, ∀ sequence,
    bridge.nativePackageSequences.lookup package.packageId = some sequence →
      sequence ≤ latest.sequence ∧
      (latest.sequence = sequence → package.eventCount = bridge.seenCount package.packageId) ∧
      (latest.sequence ≠ sequence → package.eventCount ≠ bridge.seenCount package.packageId)

theorem appendNativeRecord_eq_ok {candidate : NativeCandidate φ} :
    appendNativeRecord config candidate false bridge = .ok bridge' ↔
      Fits config (bridge.sidecarSequence + 1) candidate ∧
      bridge' = { bridge with
        sidecar := bridge.sidecar ++
          [payload config (bridge.sidecarSequence + 1) (nativeRecord config candidate false)]
        sidecarSequence := bridge.sidecarSequence + 1 } := by
  simp only [appendNativeRecord, appendProgressPayload, bind_eq_ok, ensure_eq_ok, pure_eq_ok,
    decide_eq_true_eq, exists_const, Fits, eq_comm (b := bridge')]

/-- One package is accepted exactly if it follows what the bridge last saw of it and the line of its
unseen event fits. -/
theorem observeNativePackage_eq_ok :
    observeNativePackage config snapshot package bridge = .ok bridge' ↔
      PackageFollows bridge package ∧
      (∀ candidate ∈ unseenEvent snapshot bridge package,
        Fits config (bridge.sidecarSequence + 1) candidate) ∧
      bridge' = sawPackage config package (unseenEvent snapshot bridge package) bridge := by
  have hname : (bridge.nativePackageNames.lookup package.packageId).all
      (· = package.packageName) = true ↔
      ∀ name, bridge.nativePackageNames.lookup package.packageId = some name →
        name = package.packageName := by
    simp [Option.all_eq_true]
  unfold observeNativePackage
  simp only [bind_eq_ok, ensure_eq_ok, exists_const, hname, decide_eq_true_eq]
  rcases hlat : package.latest with _ | latest
  · have hunseen : unseenEvent snapshot bridge package = none := by simp [unseenEvent, hlat]
    rw [hunseen, pure_eq_ok]
    constructor
    · rintro ⟨hname, hcnt, rfl⟩
      exact ⟨⟨hname, hcnt, by simp [hlat]⟩, by simp, rfl⟩
    · rintro ⟨hfollows, -, rfl⟩
      exact ⟨hfollows.name, hfollows.count, rfl⟩
  · dsimp only [observeNativeEvent]
    cases hseq : bridge.nativePackageSequences.lookup package.packageId with
    | none =>
      have hunseen : unseenEvent snapshot bridge package = some
          { snapshot := snapshot, package := package, event := latest,
            transportSequence := bridge.nativeTransportSequence,
            skippedEventCount := package.eventCount - bridge.seenCount package.packageId - 1 } := by
        simp [unseenEvent, hlat, hseq]
      rw [hunseen]
      simp only [appendNativeRecord_eq_ok, Option.mem_some_iff, forall_eq']
      constructor
      · rintro ⟨hname, hcnt, hfits, rfl⟩
        exact ⟨⟨hname, hcnt, by simp [hseq]⟩, hfits, rfl⟩
      · rintro ⟨hfollows, hfits, rfl⟩
        exact ⟨hfollows.name, hfollows.count, hfits, rfl⟩
    | some =>
      simp only [bind_eq_ok, ensure_eq_ok, exists_const, decide_eq_true_eq]
      split_ifs with heq
      · have hunseen : unseenEvent snapshot bridge package = none := by
          simp [unseenEvent, hlat, hseq, heq]
        rw [hunseen]
        simp only [bind_eq_ok, ensure_eq_ok, pure_eq_ok, decide_eq_true_eq, exists_const]
        constructor
        · rintro ⟨hname, hcnt, hle, hsame, rfl⟩
          refine ⟨⟨hname, hcnt, ?_⟩, by simp, rfl⟩
          rintro _ he _ hs
          cases hlat.symm.trans he
          cases hseq.symm.trans hs
          exact ⟨hle, fun _ => hsame, fun h => absurd heq h⟩
        · rintro ⟨hfollows, -, rfl⟩
          obtain ⟨hle, hsame, -⟩ := hfollows.event latest hlat _ hseq
          exact ⟨hfollows.name, hfollows.count, hle, hsame heq, rfl⟩
      · have hunseen : unseenEvent snapshot bridge package = some
            { snapshot := snapshot, package := package, event := latest,
              transportSequence := bridge.nativeTransportSequence,
              skippedEventCount := package.eventCount - bridge.seenCount package.packageId - 1 } := by
          simp [unseenEvent, hlat, hseq, Ne.symm heq]
        rw [hunseen]
        simp only [bind_eq_ok, ensure_eq_ok, decide_eq_true_eq, exists_const,
          appendNativeRecord_eq_ok, Option.mem_some_iff, forall_eq']
        constructor
        · rintro ⟨hname, hcnt, hle, hmore, hfits, rfl⟩
          refine ⟨⟨hname, hcnt, ?_⟩, hfits, rfl⟩
          rintro _ he _ hs
          cases hlat.symm.trans he
          cases hseq.symm.trans hs
          exact ⟨hle, fun h => absurd h heq, fun _ => hmore⟩
        · rintro ⟨hfollows, hfits, rfl⟩
          obtain ⟨hle, -, hmore⟩ := hfollows.event latest hlat _ hseq
          exact ⟨hfollows.name, hfollows.count, hle, hmore heq, hfits, rfl⟩

/-! ### The packages of one snapshot -/

section SawPackage

variable (config : BridgeConfig) (package : PackageProgress φ)
  (candidate : Option (NativeCandidate φ)) (snapshot : ExecutionProgress φ) (bridge : Bridge φ)

@[simp]
theorem sawPackage_names (id : String) :
    (sawPackage config package candidate bridge).nativePackageNames.lookup id =
      if id = package.packageId then some package.packageName
      else bridge.nativePackageNames.lookup id := by
  cases candidate <;> simp [sawPackage]

@[simp]
theorem sawPackage_counts (id : String) :
    (sawPackage config package candidate bridge).nativePackageEventCounts.lookup id =
      if id = package.packageId then some package.eventCount
      else bridge.nativePackageEventCounts.lookup id := by
  cases candidate <;> simp [sawPackage]

@[simp]
theorem sawPackage_frame :
    (sawPackage config package candidate bridge).nativeMode = bridge.nativeMode ∧
    (sawPackage config package candidate bridge).nativeTransportSequence =
      bridge.nativeTransportSequence ∧
    (sawPackage config package candidate bridge).boundExecutionId = bridge.boundExecutionId ∧
    (sawPackage config package candidate bridge).nativeExecution = bridge.nativeExecution ∧
    (sawPackage config package candidate bridge).sidecarSequence =
      bridge.sidecarSequence + candidate.toList.length := by
  cases candidate <;> simp [sawPackage]

theorem sawPackage_sequences (id : String) :
    (sawPackage config package (unseenEvent snapshot bridge package)
        bridge).nativePackageSequences.lookup id =
      if id = package.packageId then (package.latest.map ProgressEvent.sequence).or
        (bridge.nativePackageSequences.lookup id)
      else bridge.nativePackageSequences.lookup id := by
  rcases hlat : package.latest with _ | latest
  · have hunseen : unseenEvent snapshot bridge package = none := by simp [unseenEvent, hlat]
    simp [hunseen, sawPackage]
  · by_cases hseq : bridge.nativePackageSequences.lookup package.packageId = some latest.sequence
    · have hunseen : unseenEvent snapshot bridge package = none := by
        simp [unseenEvent, hlat, hseq]
      by_cases hid : id = package.packageId
      · subst hid
        simp [hunseen, sawPackage, hseq]
      · simp [hunseen, sawPackage, hid]
    · simp [unseenEvent, hlat, hseq, sawPackage]

variable {package}

/-- The other packages are not touched. -/
theorem sawPackage_of_ne {other : PackageProgress φ} (h : other.packageId ≠ package.packageId) :
    unseenEvent snapshot (sawPackage config package (unseenEvent snapshot bridge package) bridge)
        other = unseenEvent snapshot bridge other ∧
      (PackageFollows (sawPackage config package (unseenEvent snapshot bridge package) bridge)
        other ↔ PackageFollows bridge other) := by
  have hcnt : seenCount (sawPackage config package (unseenEvent snapshot bridge package) bridge)
      other.packageId = seenCount bridge other.packageId := by
    simp [seenCount, h]
  have hseqs := sawPackage_sequences config package snapshot bridge other.packageId
  rw [if_neg h] at hseqs
  constructor
  · generalize unseenEvent snapshot bridge package = event at hcnt hseqs ⊢
    simp only [unseenEvent, hseqs, hcnt, (sawPackage_frame ..).2.1]
  · constructor
    · rintro ⟨hname, hle, hev⟩
      rw [hcnt] at hle hev
      rw [hseqs] at hev
      rw [sawPackage_names, if_neg h] at hname
      exact ⟨hname, hle, hev⟩
    · rintro ⟨hname, hle, hev⟩
      refine ⟨?_, ?_, ?_⟩
      · rwa [sawPackage_names, if_neg h]
      · rwa [hcnt]
      · rwa [hcnt, hseqs]

end SawPackage

/-- The bridge after the packages of a snapshot. -/
def sawPackages (config : BridgeConfig) (snapshot : ExecutionProgress φ) :
    List (PackageProgress φ) → Bridge φ → Bridge φ
  | [], bridge => bridge
  | package :: packages, bridge =>
    sawPackages config snapshot packages
      (sawPackage config package (unseenEvent snapshot bridge package) bridge)

/-- Packages of distinct ids are accepted exactly if each follows what was seen of it before the
sample and the unseen lines fit together. -/
theorem observeNativePackages_eq_ok {packages : List (PackageProgress φ)}
    (hnd : (packageIds packages).Nodup) :
    observeNativePackages config snapshot packages bridge = .ok bridge' ↔
      (∀ package ∈ packages, PackageFollows bridge package) ∧
      LinesFit config bridge.sidecarSequence (packages.filterMap (unseenEvent snapshot bridge)) ∧
      bridge' = sawPackages config snapshot packages bridge := by
  induction packages generalizing bridge with
  | nil => simp [observeNativePackages, sawPackages, LinesFit, eq_comm]
  | cons package packages ih =>
    obtain ⟨hfresh, hnd⟩ := List.nodup_cons.1 hnd
    have hne : ∀ other ∈ packages, other.packageId ≠ package.packageId := by
      intro other hother hid
      exact hfresh (hid ▸ List.mem_map_of_mem hother)
    have hunseen := List.filterMap_congr fun other hother =>
      (sawPackage_of_ne config snapshot bridge (hne other hother)).1
    have hfollows : (∀ other ∈ packages, PackageFollows (sawPackage config package
        (unseenEvent snapshot bridge package) bridge) other) ↔
        ∀ other ∈ packages, PackageFollows bridge other :=
      forall₂_congr fun other hother =>
        (sawPackage_of_ne config snapshot bridge (hne other hother)).2
    have hlines : LinesFit config bridge.sidecarSequence
        ((package :: packages).filterMap (unseenEvent snapshot bridge)) ↔
        (∀ candidate ∈ unseenEvent snapshot bridge package,
          Fits config (bridge.sidecarSequence + 1) candidate) ∧
        LinesFit config (bridge.sidecarSequence +
          (unseenEvent snapshot bridge package).toList.length)
          (packages.filterMap (unseenEvent snapshot bridge)) := by
      rw [List.filterMap_cons]
      rcases unseenEvent snapshot bridge package with _ | candidate
      · simp
      · simp [LinesFit]
    simp only [observeNativePackages, bind_eq_ok, observeNativePackage_eq_ok, ih hnd, hlines,
      List.forall_mem_cons, sawPackages]
    constructor
    · rintro ⟨_, ⟨hpkg, hfits, rfl⟩, hrest, hmore, rfl⟩
      rw [hunseen, (sawPackage_frame ..).2.2.2.2] at hmore
      exact ⟨⟨hpkg, hfollows.1 hrest⟩, ⟨hfits, hmore⟩, rfl⟩
    · rintro ⟨⟨hpkg, hrest⟩, ⟨hfits, hmore⟩, rfl⟩
      refine ⟨_, ⟨hpkg, hfits, rfl⟩, hfollows.2 hrest, ?_, rfl⟩
      rwa [hunseen, (sawPackage_frame ..).2.2.2.2]

section SawPackages

variable (config : BridgeConfig) (snapshot : ExecutionProgress φ)
  {packages : List (PackageProgress φ)} (bridge : Bridge φ)

omit [PyFloat φ] [RelayHmac] in
theorem find?_eq_none_of_fresh {id : String} (h : id ∉ packageIds packages) :
    (packages.find? fun package => package.packageId = id) = none := by
  rw [List.find?_eq_none]
  intro package hpkg hid
  exact h (of_decide_eq_true hid ▸ List.mem_map_of_mem hpkg)

/-- After a sample the bridge knows of each package what the sample says, and of the others what it
knew before. -/
theorem sawPackages_lookup (hnd : (packageIds packages).Nodup) (id : String) :
    (sawPackages config snapshot packages bridge).nativePackageNames.lookup id =
      ((packages.find? fun package => package.packageId = id).map PackageProgress.packageName).or
        (bridge.nativePackageNames.lookup id) ∧
    (sawPackages config snapshot packages bridge).nativePackageEventCounts.lookup id =
      ((packages.find? fun package => package.packageId = id).map PackageProgress.eventCount).or
        (bridge.nativePackageEventCounts.lookup id) ∧
    (sawPackages config snapshot packages bridge).nativePackageSequences.lookup id =
      (((packages.find? fun package => package.packageId = id).bind
        PackageProgress.latest).map ProgressEvent.sequence).or
        (bridge.nativePackageSequences.lookup id) := by
  induction packages generalizing bridge with
  | nil => simp [sawPackages]
  | cons package packages ih =>
    obtain ⟨hfresh, hnd⟩ := List.nodup_cons.1 hnd
    obtain ⟨hnames, hcounts, hseqs⟩ := ih
      (sawPackage config package (unseenEvent snapshot bridge package) bridge) hnd
    rw [sawPackages, hnames, hcounts, hseqs, sawPackage_names, sawPackage_counts,
      sawPackage_sequences, List.find?_cons]
    by_cases hid : id = package.packageId
    · subst hid
      simp [find?_eq_none_of_fresh hfresh]
    · simp [hid, Ne.symm hid]

theorem sawPackages_frame :
    (sawPackages config snapshot packages bridge).nativeMode = bridge.nativeMode ∧
    (sawPackages config snapshot packages bridge).nativeTransportSequence =
      bridge.nativeTransportSequence ∧
    (sawPackages config snapshot packages bridge).boundExecutionId = bridge.boundExecutionId ∧
    (sawPackages config snapshot packages bridge).nativeExecution = bridge.nativeExecution := by
  induction packages generalizing bridge with
  | nil => simp [sawPackages]
  | cons package packages ih =>
    obtain ⟨hmode, hnum, hbd, hexec⟩ := ih
      (sawPackage config package (unseenEvent snapshot bridge package) bridge)
    obtain ⟨hmode', hnum', hbd', hexec', -⟩ :=
      sawPackage_frame config package (unseenEvent snapshot bridge package) bridge
    exact ⟨hmode.trans hmode', hnum.trans hnum', hbd.trans hbd', hexec.trans hexec'⟩

/-- Each unseen event of a sample gets one line, so the sequence of the sidecar grows by their
number. -/
theorem sawPackages_sidecarSequence (hnd : (packageIds packages).Nodup) :
    (sawPackages config snapshot packages bridge).sidecarSequence =
      bridge.sidecarSequence + (packages.filterMap (unseenEvent snapshot bridge)).length := by
  induction packages generalizing bridge with
  | nil => simp [sawPackages]
  | cons package packages ih =>
    obtain ⟨hfresh, hnd⟩ := List.nodup_cons.1 hnd
    have hunseen := List.filterMap_congr fun other (hother : other ∈ packages) =>
      have hne : other.packageId ≠ package.packageId := fun hid =>
        hfresh (hid ▸ List.mem_map_of_mem hother)
      (sawPackage_of_ne config snapshot bridge hne).1
    rw [sawPackages, ih _ hnd, hunseen, (sawPackage_frame ..).2.2.2.2, List.filterMap_cons]
    rcases unseenEvent snapshot bridge package with _ | _
    · simp
    · rw [Option.toList_some, List.length_singleton, List.length_cons]
      omega

end SawPackages

/-- The bridge before the packages of a snapshot. -/
def started (snapshot : ExecutionProgress φ) (bridge : Bridge φ) : Bridge φ :=
  sawState snapshot
    { bridge with nativeMode := some true,
                  nativeTransportSequence := bridge.nativeTransportSequence + 1,
                  boundExecutionId := some snapshot.executionId }

/-- The bridge after a snapshot. -/
def sawSnapshot (config : BridgeConfig) (snapshot : ExecutionProgress φ) (bridge : Bridge φ) :
    Bridge φ :=
  sawPackages config snapshot snapshot.packages (started snapshot bridge)

omit [RelayHmac] in
/-- A number is a float that is that number. -/
def IsNumbered (φ : Type) [PyFloat φ] (number : Nat) : Prop :=
  ∃ x : φ, PyFloat.ofInt (number : Int) = some x ∧ PyFloat.value x = number

omit [RelayHmac] in
theorem isNextTransport_eq_ok :
    isNextTransport bridge (.num (.int (bridge.nativeTransportSequence + 1))) = .ok true ↔
      IsNumbered φ (bridge.nativeTransportSequence + 1) := by
  simp only [isNextTransport, finiteProgressNumber, Number.toFloat, IsNumbered, bind_eq_ok]
  rcases hx : (PyFloat.ofInt ((bridge.nativeTransportSequence : Int) + 1) : Option φ) with _ | x
  · simp [hx]
  · simp [hx, pure_eq_ok]

section Step

variable {number : Nat} {old : Option (ExecutionProgress φ)} {snapshot : ExecutionProgress φ}
  {bridge : Bridge φ}

section

omit [PyFloat φ] [RelayHmac]

section

variable (h : Follows number old bridge)

include h

/-- What the bridge holds is what the last snapshot showed. -/
theorem Follows.unseenEvent_eq (package : PackageProgress φ) :
    unseenEvent snapshot (started snapshot bridge) package =
      newEvent (number + 1) old snapshot package := by
  have hseq : (started snapshot bridge).nativePackageSequences.lookup package.packageId =
      ((lastSeen old package.packageId).bind PackageProgress.latest).map ProgressEvent.sequence :=
    h.sequences package.packageId
  have hcnt : (started snapshot bridge).seenCount package.packageId =
      ((lastSeen old package.packageId).map PackageProgress.eventCount).getD 0 := by
    rw [← h.counts]
    rfl
  have hnum : (started snapshot bridge).nativeTransportSequence = number + 1 := by
    rw [← h.number]
    rfl
  simp only [unseenEvent, newEvent, hseq, hcnt, hnum]

theorem Follows.unseenEvents_eq (snapshot : ExecutionProgress φ)
    (packages : List (PackageProgress φ)) :
    packages.filterMap (unseenEvent snapshot (started snapshot bridge)) =
      packages.filterMap (newEvent (number + 1) old snapshot) :=
  List.filterMap_congr fun package _ => h.unseenEvent_eq package

/-- The rules on a package compare it with where it was seen last. -/
theorem Follows.packageFollows_iff
    {package : PackageProgress φ} (hsound : package.eventCount = 0 ↔ package.latest = none)
    (hold : ∀ o ∈ lastSeen old package.packageId, o.eventCount = 0 ↔ o.latest = none) :
    PackageFollows (started snapshot bridge) package ↔
      ∀ o ∈ lastSeen old package.packageId, PackageAdvances (fun _ _ => True) o package := by
  have hname : (started snapshot bridge).nativePackageNames.lookup package.packageId =
      (lastSeen old package.packageId).map PackageProgress.packageName := h.names _
  have hcnt : (started snapshot bridge).seenCount package.packageId =
      ((lastSeen old package.packageId).map PackageProgress.eventCount).getD 0 := by
    rw [← h.counts]
    rfl
  have hseq : (started snapshot bridge).nativePackageSequences.lookup package.packageId =
      ((lastSeen old package.packageId).bind PackageProgress.latest).map ProgressEvent.sequence :=
    h.sequences _
  rcases hseen : lastSeen old package.packageId with _ | o
  · rw [hseen] at hname hcnt hseq
    simp only [Option.not_mem_none, IsEmpty.forall_iff, implies_true, iff_true]
    refine ⟨fun _ hn => ?_, hcnt ▸ Nat.zero_le _, fun _ _ _ hs => ?_⟩
    · rw [hname] at hn
      cases hn
    · rw [hseq] at hs
      cases hs
  · rw [hseen] at hname hcnt hseq
    have hempty := hold o hseen
    simp only [Option.mem_some_iff, forall_eq']
    constructor
    · rintro ⟨hn, hle, hev⟩
      rw [hcnt] at hle hev
      refine ⟨(hn _ hname).symm, hle, ?_⟩
      intro e he
      -- events have been counted, so there is a latest one
      have hsome : package.latest ≠ none := by
        intro hnone
        have hzero := hsound.2 hnone
        have hlat := hempty.1 (Nat.le_zero.1 (hzero ▸ hle))
        rw [hlat] at he
        cases he
      obtain ⟨e', he'⟩ := Option.ne_none_iff_exists'.1 hsome
      have hlast : (started snapshot bridge).nativePackageSequences.lookup package.packageId =
          some e.sequence := by
        rw [hseq, Option.bind_some, show o.latest = some e from he, Option.map_some]
      obtain ⟨hle, hsame, hmore⟩ := hev e' he' _ hlast
      exact ⟨e', he', hle, fun hs => ⟨hsame hs, trivial⟩, hmore⟩
    · rintro ⟨hn, hle, hev⟩
      refine ⟨?_, ?_, ?_⟩
      · intro _ hfound
        rw [hname] at hfound
        cases hfound
        exact hn.symm
      · rwa [hcnt]
      · intro e' he' sequence hs
        rw [hseq, Option.bind_some] at hs
        obtain ⟨e, he, rfl⟩ := Option.map_eq_some_iff.1 hs
        obtain ⟨_, he'', hle, hsame, hmore⟩ := hev e he
        cases he'.symm.trans he''
        rw [hcnt]
        exact ⟨hle, fun hs => (hsame hs).1, hmore⟩

/-- The packages of the bridge are those of the last snapshot. -/
theorem Follows.names_iff {p : String → Prop} :
    (∀ entry ∈ bridge.nativePackageNames, p entry.1) ↔
      ∀ o ∈ old, ∀ package ∈ o.packages, p package.packageId := by
  have hkeys : ∀ id, (∃ entry ∈ bridge.nativePackageNames, entry.1 = id) ↔
      ∃ package, lastSeen old id = some package := by
    intro id
    have hlook : (bridge.nativePackageNames.lookup id).isSome = (lastSeen old id).isSome := by
      rw [h.names, Option.isSome_map]
    rw [← Option.isSome_iff_exists, ← hlook, List.lookup_isSome_iff]
    simp only [beq_iff_eq]
    exact ⟨fun ⟨e, he, hid⟩ => ⟨e, he, hid.symm⟩, fun ⟨e, he, hid⟩ => ⟨e, he, hid.symm⟩⟩
  constructor
  · intro hall o ho package hpkg
    have hsome : (packageOf o package.packageId).isSome = true :=
      List.find?_isSome.2 ⟨package, hpkg, decide_eq_true rfl⟩
    obtain ⟨found, hfound⟩ := Option.isSome_iff_exists.1 hsome
    have hseen : lastSeen old package.packageId = some found := by
      rw [lastSeen, show old = some o from ho, Option.bind_some, hfound]
    obtain ⟨entry, hent, hid⟩ := (hkeys package.packageId).2 ⟨found, hseen⟩
    exact hid ▸ hall entry hent
  · intro hall entry hent
    obtain ⟨package, hseen⟩ := (hkeys entry.1).1 ⟨entry, hent, rfl⟩
    obtain ⟨o, ho, hfound⟩ := Option.bind_eq_some_iff.1 hseen
    obtain ⟨hmem, hid⟩ := packageOf_eq_some hfound
    exact hid ▸ hall o ho package hmem

/-- The rules on the packages of a snapshot. -/
theorem Follows.packages_iff (hold : ∀ o ∈ old, o.Sound) (hsound : snapshot.Sound) :
    ((∀ entry ∈ (started snapshot bridge).nativePackageNames,
        entry.1 ∈ packageIds snapshot.packages) ∧
      ∀ package ∈ snapshot.packages, PackageFollows (started snapshot bridge) package) ↔
    ∀ o ∈ old, ProgressAdvances (fun _ _ => True) o snapshot := by
  have hfollows : ∀ package ∈ snapshot.packages, (PackageFollows (started snapshot bridge) package ↔
        ∀ o ∈ lastSeen old package.packageId, PackageAdvances (fun _ _ => True) o package) := by
    intro package hpkg
    refine h.packageFollows_iff (hsound.packages package hpkg).counted fun o ho => ?_
    obtain ⟨s, hs, hfound⟩ := Option.bind_eq_some_iff.1 ho
    exact ((hold s hs).packages o (packageOf_eq_some hfound).1).counted
  have hnames : (∀ entry ∈ (started snapshot bridge).nativePackageNames,
      entry.1 ∈ packageIds snapshot.packages) ↔
      ∀ o ∈ old, ∀ package ∈ o.packages, package.packageId ∈ packageIds snapshot.packages :=
    h.names_iff (p := fun id => id ∈ packageIds snapshot.packages)
  rw [hnames]
  constructor
  · rintro ⟨hkept, hpkgs⟩ o ho package hpkg
    obtain ⟨package', hpkg', hid⟩ := List.mem_map.1 (hkept o ho package hpkg)
    refine ⟨package', hid ▸ packageOf_of_mem hsound.distinct hpkg', ?_⟩
    refine (hfollows package' hpkg').1 (hpkgs package' hpkg') package ?_
    rw [lastSeen, show old = some o from ho, Option.bind_some, hid]
    exact packageOf_of_mem (hold o ho).distinct hpkg
  · intro hadv
    constructor
    · intro o ho package hpkg
      obtain ⟨package', hfound, -⟩ := hadv o ho package hpkg
      obtain ⟨hmem, hid⟩ := packageOf_eq_some hfound
      exact hid ▸ List.mem_map_of_mem hmem
    · intro package hpkg
      rw [hfollows package hpkg]
      intro seen hseen
      obtain ⟨o, ho, hfound⟩ := Option.bind_eq_some_iff.1 hseen
      obtain ⟨hmem, hid⟩ := packageOf_eq_some hfound
      obtain ⟨package', hfound', hadvance⟩ := hadv o ho seen hmem
      rw [hid, packageOf_of_mem hsound.distinct hpkg] at hfound'
      cases hfound'
      exact hadvance

/-- The rules on the execution of a snapshot, and on its packages. -/
theorem Follows.advances_iff (hold : ∀ o ∈ old, o.Sound) (hsound : snapshot.Sound) :
    (bridge.boundExecutionId.all (· = snapshot.executionId) = true ∧
      StateFollows snapshot bridge ∧
      (∀ entry ∈ (started snapshot bridge).nativePackageNames,
        entry.1 ∈ packageIds snapshot.packages) ∧
      ∀ package ∈ snapshot.packages, PackageFollows (started snapshot bridge) package) ↔
    ∀ o ∈ old, SnapshotAdvances reachableStates o snapshot := by
  rw [h.packages_iff hold hsound, h.bound, StateFollows, h.execution]
  rcases old with _ | o
  · simp
  · simp only [Option.map_some, Option.all_some, decide_eq_true_eq, Option.some.injEq,
      Prod.mk.injEq, Option.mem_some_iff, forall_eq']
    constructor
    · rintro ⟨hid, hst, hprog⟩
      obtain ⟨hkept, hreach, hended⟩ := hst _ _ ⟨rfl, rfl⟩
      exact ⟨hid, hkept, hreach, hended, hprog⟩
    · rintro ⟨hid, hkept, hreach, hended, hprog⟩
      refine ⟨hid, ?_, hprog⟩
      rintro _ _ ⟨rfl, rfl⟩
      exact ⟨hkept, hreach, hended⟩

end

end

omit [RelayHmac] in
theorem sound_of_read {value : Value (Number φ)}
    (h : validatedNativeProgressSnapshot value = .ok snapshot) : snapshot.Sound := by
  obtain ⟨_, -, -, -, -, hsound⟩ := validatedNativeProgressSnapshot_eq_ok.1 h
  exact hsound

omit [PyFloat φ] [RelayHmac] in
theorem kept_iff {names : List (String × String)} :
    (names.all fun entry => (packageIds snapshot.packages).contains entry.1) = true ↔
      ∀ entry ∈ names, entry.1 ∈ packageIds snapshot.packages := by
  simp only [List.all_eq_true, List.contains_iff_mem]

/-- **What a bridge accepts of a numbered snapshot.** -/
theorem Follows.observeNativeProgress_eq_ok (h : Follows number old bridge)
    (hold : ∀ o ∈ old, o.Sound) {config : BridgeConfig} {value : Value (Number φ)}
    {bridge' : Bridge φ} :
    observeNativeProgress config value (.num (.int (bridge.nativeTransportSequence + 1))) bridge =
        .ok bridge' ↔
      IsNumbered φ (number + 1) ∧ ∃ snapshot, validatedNativeProgressSnapshot value = .ok snapshot ∧
        snapshot.pipelineId = config.expectedPipelineId ∧
        (∀ o ∈ old, SnapshotAdvances reachableStates o snapshot) ∧
        LinesFit config bridge.sidecarSequence
          (snapshot.packages.filterMap (newEvent (number + 1) old snapshot)) ∧
        bridge' = sawSnapshot config snapshot bridge := by
  have hnumbered : (∃ isNext, isNextTransport bridge
      (.num (.int (bridge.nativeTransportSequence + 1))) = .ok isNext ∧ isNext = true) ↔
      IsNumbered φ (number + 1) := by
    rw [← h.number, ← isNextTransport_eq_ok]
    simp
  have hmode : bridge.nativeMode ≠ some false := h.mode
  unfold observeNativeProgress
  simp only [bind_eq_ok, ensure_eq_ok, exists_const, decide_eq_true_eq,
    observeNativeExecutionLifecycle_eq_ok]
  rw [← hnumbered]
  constructor
  · rintro ⟨-, isNext, hnext, htrue, snapshot, hread, hpipe, hbd, _, ⟨hst, rfl⟩, hkept, hpkgs⟩
    have hsound : snapshot.Sound := sound_of_read hread
    have hpkgs : observeNativePackages config snapshot snapshot.packages
        (started snapshot bridge) = .ok bridge' := hpkgs
    obtain ⟨hfollows, hfits, rfl⟩ := (observeNativePackages_eq_ok hsound.distinct).1 hpkgs
    have hall := (h.advances_iff hold hsound).1 ⟨hbd, hst, kept_iff.1 hkept, hfollows⟩
    rw [h.unseenEvents_eq] at hfits
    exact ⟨⟨isNext, hnext, htrue⟩, snapshot, hread, hpipe, hall, hfits, rfl⟩
  · rintro ⟨⟨isNext, hnext, htrue⟩, snapshot, hread, hpipe, hall, hfits, rfl⟩
    have hsound : snapshot.Sound := sound_of_read hread
    obtain ⟨hbd, hst, hkept, hfollows⟩ := (h.advances_iff hold hsound).2 hall
    refine ⟨hmode, isNext, hnext, htrue, snapshot, hread, hpipe, hbd, _, ⟨hst, rfl⟩,
      kept_iff.2 hkept, ?_⟩
    refine (observeNativePackages_eq_ok hsound.distinct).2 ⟨hfollows, ?_, rfl⟩
    have hunseen := h.unseenEvents_eq snapshot snapshot.packages
    exact hunseen ▸ hfits

/-- The bridge then holds what this snapshot showed. -/
theorem Follows.sawSnapshot (h : Follows number old bridge)
    (hsound : snapshot.Sound) (config : BridgeConfig)
    (hadv : ∀ o ∈ old, SnapshotAdvances reachableStates o snapshot) :
    Follows (number + 1) (some snapshot) (sawSnapshot config snapshot bridge) := by
  have hlook := sawPackages_lookup config snapshot (started snapshot bridge) hsound.distinct
  obtain ⟨hmode, hnum, hbd, hexec⟩ :
      (sawPackages config snapshot snapshot.packages (started snapshot bridge)).nativeMode = _ ∧
        _ ∧ _ ∧ _ := sawPackages_frame config snapshot (started snapshot bridge)
  -- what the snapshot shows, and what it does not show and no earlier one showed
  have hcases : ∀ id, (∃ package, packageOf snapshot id = some package ∧
      (package.latest = none → (lastSeen old id).bind PackageProgress.latest = none)) ∨
      (packageOf snapshot id = none ∧ lastSeen old id = none) := by
    intro id
    have hadvance : ∀ seen, lastSeen old id = some seen → ∃ package,
        packageOf snapshot id = some package ∧ PackageAdvances (fun _ _ => True) seen package := by
      intro seen hseen
      obtain ⟨o, ho, hfound⟩ := Option.bind_eq_some_iff.1 hseen
      obtain ⟨hmem, hpkg⟩ := packageOf_eq_some hfound
      exact hpkg ▸ (hadv o ho).progress seen hmem
    rcases hfound : packageOf snapshot id with _ | package
    · refine Or.inr ⟨rfl, Option.eq_none_iff_forall_not_mem.2 fun seen hseen => ?_⟩
      obtain ⟨package, hpkg, -⟩ := hadvance seen hseen
      rw [hfound] at hpkg
      cases hpkg
    · refine Or.inl ⟨package, rfl, fun hlat => ?_⟩
      rw [Option.bind_eq_none_iff]
      intro seen hseen
      obtain ⟨_, hpkg, hpair⟩ := hadvance seen hseen
      rw [hfound] at hpkg
      cases hpkg
      refine Option.eq_none_iff_forall_not_mem.2 fun event hev => ?_
      obtain ⟨_, hev', -⟩ := hpair.event event hev
      rw [hlat] at hev'
      cases hev'
  refine ⟨?_, ?_, hbd, hexec, fun id => ?_, fun id => ?_, fun id => ?_⟩
  · rw [Bridge.sawSnapshot, hmode]
    exact fun hfalse => by cases hfalse
  · rw [Bridge.sawSnapshot, hnum, ← h.number]
    rfl
  · have hold : (started snapshot bridge).nativePackageNames.lookup id =
        (lastSeen old id).map PackageProgress.packageName := h.names id
    rw [Bridge.sawSnapshot, (hlook id).1, hold, ← packageOf]
    obtain ⟨package, hfound, -⟩ | ⟨hfound, hnone⟩ := hcases id
    · simp [lastSeen, hfound]
    · rw [hnone]
      simp [lastSeen, hfound]
  · have hold : (started snapshot bridge).nativePackageEventCounts.lookup id =
        (lastSeen old id).map PackageProgress.eventCount := h.counts id
    rw [Bridge.sawSnapshot, (hlook id).2.1, hold, ← packageOf]
    obtain ⟨package, hfound, -⟩ | ⟨hfound, hnone⟩ := hcases id
    · simp [lastSeen, hfound]
    · rw [hnone]
      simp [lastSeen, hfound]
  · have hold : (started snapshot bridge).nativePackageSequences.lookup id =
        ((lastSeen old id).bind PackageProgress.latest).map ProgressEvent.sequence := h.sequences id
    rw [Bridge.sawSnapshot, (hlook id).2.2, hold, ← packageOf]
    obtain ⟨package, hfound, hlat⟩ | ⟨hfound, hnone⟩ := hcases id
    · rcases hev : package.latest with _ | event
      · rw [hlat hev]
        simp [lastSeen, hfound, hev]
      · simp [lastSeen, hfound, hev]
    · rw [hnone]
      simp [lastSeen, hfound]

theorem Follows.sidecarSequence_sawSnapshot (h : Follows number old bridge)
    (hsound : snapshot.Sound) (config : BridgeConfig) :
    (Bridge.sawSnapshot config snapshot bridge).sidecarSequence = bridge.sidecarSequence +
      (snapshot.packages.filterMap (newEvent (number + 1) old snapshot)).length := by
  rw [Bridge.sawSnapshot, sawPackages_sidecarSequence config snapshot _ hsound.distinct,
    h.unseenEvents_eq]
  rfl

end Step

/-! ### A list of snapshots -/

/-- A notification of each snapshot, with the next number. -/
def observeSnapshots (config : BridgeConfig) :
    List (Value (Number φ)) → Bridge φ → Except RunnerFailure (Bridge φ)
  | [], bridge => .ok bridge
  | value :: values, bridge => do
    let observed ← observeNativeProgress config value
      (.num (.int (bridge.nativeTransportSequence + 1))) bridge
    observeSnapshots config values observed

/-- A fresh bridge accepts a list of snapshots. -/
def Accepts (config : BridgeConfig) (values : List (Value (Number φ))) : Prop :=
  ∃ bridge, observeSnapshots config values fresh = .ok bridge

omit [RelayHmac] in
theorem snapshotsOf_cons {value : Value (Number φ)}
    (h : validatedNativeProgressSnapshot value = .ok snapshot) (values : List (Value (Number φ))) :
    snapshotsOf (value :: values) = snapshot :: snapshotsOf values := by
  rw [snapshotsOf, List.filterMap_cons, h]
  rfl

/-- A bridge accepts a list of snapshots: each one alone, each against the one before, and the
lines of what they show. -/
theorem Follows.observeSnapshots_iff {number : Nat} {old : Option (ExecutionProgress φ)}
    (h : Follows number old bridge) (hold : ∀ o ∈ old, o.Sound) :
    (∃ bridge', observeSnapshots config values bridge = .ok bridge') ↔
      (∀ k < values.length, IsNumbered φ (number + k + 1)) ∧
      (∀ value ∈ values, IsSnapshotFor config value) ∧
      (old.toList ++ snapshotsOf values).IsChain (SnapshotAdvances reachableStates) ∧
      LinesFit config bridge.sidecarSequence (newEvents number old (snapshotsOf values)) := by
  induction values generalizing number old bridge with
  | nil => cases old <;> simp [observeSnapshots, snapshotsOf, newEvents, LinesFit]
  | cons value values ih =>
    have hnumbers : (∀ k < (value :: values).length, IsNumbered φ (number + k + 1)) ↔
        IsNumbered φ (number + 1) ∧
          ∀ k < values.length, IsNumbered φ (number + 1 + k + 1) := by
      constructor
      · intro hall
        refine ⟨hall 0 (Nat.succ_pos _), fun k hk => ?_⟩
        have := hall (k + 1) (Nat.succ_lt_succ hk)
        rwa [show number + 1 + k + 1 = number + (k + 1) + 1 by omega]
      · rintro ⟨hfirst, hrest⟩ k hk
        rcases k with _ | k
        · exact hfirst
        · rw [show number + (k + 1) + 1 = number + 1 + k + 1 by omega]
          exact hrest k (Nat.lt_of_succ_lt_succ hk)
    have hchain : ∀ snapshot, (old.toList ++ snapshot :: snapshotsOf values).IsChain
        (SnapshotAdvances reachableStates) ↔
        (∀ o ∈ old, SnapshotAdvances reachableStates o snapshot) ∧
          (snapshot :: snapshotsOf values).IsChain (SnapshotAdvances reachableStates) := by
      intro snapshot
      rcases old with _ | o
      · simp
      · simp [List.isChain_cons_cons]
    simp only [observeSnapshots, bind_eq_ok, h.observeNativeProgress_eq_ok hold, hnumbers,
      List.forall_mem_cons]
    constructor
    · rintro ⟨bridge', _, ⟨hnum, snapshot, hread, hpipe, hadv, hfits, rfl⟩, hrest⟩
      have hsound := sound_of_read hread
      obtain ⟨hnumbers, hvalues, hlater, hlines⟩ :=
        (ih (h.sawSnapshot hsound config hadv) fun o ho => by
          cases ho
          exact hsound).1 ⟨bridge', hrest⟩
      rw [h.sidecarSequence_sawSnapshot hsound] at hlines
      rw [snapshotsOf_cons hread, hchain, newEvents, linesFit_append]
      exact ⟨⟨hnum, hnumbers⟩, ⟨⟨snapshot, hread, hpipe⟩, hvalues⟩, ⟨hadv, hlater⟩, hfits, hlines⟩
    · rintro ⟨⟨hnum, hnumbers⟩, ⟨⟨snapshot, hread, hpipe⟩, hvalues⟩, hall, hlines⟩
      have hsound := sound_of_read hread
      rw [snapshotsOf_cons hread, hchain] at hall
      rw [snapshotsOf_cons hread, newEvents, linesFit_append] at hlines
      obtain ⟨hadv, hlater⟩ := hall
      obtain ⟨bridge', hrest⟩ :=
        (ih (h.sawSnapshot hsound config hadv) fun o ho => by
          cases ho
          exact hsound).2 ⟨hnumbers, hvalues, hlater, by
            rw [h.sidecarSequence_sawSnapshot hsound]
            exact hlines.2⟩
      exact ⟨bridge', _, ⟨hnum, snapshot, hread, hpipe, hadv, hlines.1, rfl⟩, hrest⟩

/-- **What a fresh bridge accepts.** -/
theorem observeSnapshots_fresh_iff :
    Accepts config values ↔
      (∀ k < values.length, IsNumbered φ (k + 1)) ∧
      (∀ value ∈ values, IsSnapshotFor config value) ∧
      (snapshotsOf values).IsChain (SnapshotAdvances reachableStates) ∧
      LinesFit config 0 (newEvents 0 none (snapshotsOf values)) := by
  have hnone : ∀ o ∈ (none : Option (ExecutionProgress φ)), o.Sound := fun o ho => by cases ho
  have h : (∃ bridge', observeSnapshots config values fresh = .ok bridge') ↔ _ :=
    follows_fresh.observeSnapshots_iff hnone
  simp only [Nat.zero_add] at h
  exact h

/-! ### Samples -/

section Samples

variable {a b c : ExecutionProgress φ}

omit [PyFloat φ] [RelayHmac] in
/-- Later snapshots of later snapshots, under the table of all later states. -/
theorem snapshotAdvances_trans (ha : Lifecycle a.executionState a.terminal)
    (hc : Lifecycle c.executionState c.terminal) (hab : SnapshotAdvances eventualStates a b)
    (hbc : SnapshotAdvances eventualStates b c) : SnapshotAdvances eventualStates a c where
  executionId := hab.executionId.trans hbc.executionId
  kept := kept_trans ha hc hab.kept hbc.kept hab.reached hbc.reached
  reached := eventualStates_trans _ _ _ hab.reached hbc.reached
  ended := by
    intro hac hterm
    by_cases hst : a.executionState = b.executionState
    · have hb := hbc.ended (fun h => hac (hst.trans h)) (hab.kept hst ▸ hterm)
      exact hst.trans hb
    · exact hab.ended hst hterm
  progress := hab.progress.trans (fun _ _ _ _ _ => trivial) hbc.progress

omit [PyFloat φ] [RelayHmac] in
theorem snapshotAdvances_iff :
    SnapshotAdvances reachableStates a b ↔
      SnapshotAdvances eventualStates a b ∧ ¬ Relapse a.executionState b.executionState := by
  constructor
  · intro h
    obtain ⟨hreach, hrelapse⟩ := reached_iff.1 h.reached
    exact ⟨{ h with reached := hreach }, hrelapse⟩
  · rintro ⟨h, hrelapse⟩
    exact { h with reached := reached_iff.2 ⟨h.reached, hrelapse⟩ }

omit [RelayHmac] in
theorem sound_of_mem_snapshotsOf {values : List (Value (Number φ))}
    (h : a ∈ snapshotsOf values) : a.Sound := by
  obtain ⟨value, -, hread⟩ := List.mem_filterMap.1 h
  rcases hv : validatedNativeProgressSnapshot value with e | _
  · rw [hv] at hread
    cases hread
  · rw [hv] at hread
    cases hread
    exact sound_of_read hv

/-- **Which lists of snapshots are accepted in every sample**: those in which `submitted` is never
seen after `scripted` or `running`, and whose samples write lines within the limit. -/
theorem snapshot_samples_accepted_iff {config : BridgeConfig} {values : List (Value (Number φ))}
    (h : Accepts config values) :
    (∀ sample : List (Value (Number φ)), sample.Sublist values → Accepts config sample) ↔
      ((snapshotsOf values).Pairwise fun a b =>
        ¬ Relapse a.executionState b.executionState) ∧
      ∀ sample : List (Value (Number φ)), sample.Sublist values →
        LinesFit config 0 (newEvents 0 none (snapshotsOf sample)) := by
  obtain ⟨hnumbers, hvalues, hchain, -⟩ := observeSnapshots_fresh_iff.1 h
  have hsampled := Durable.sampled_iff (V := fun s => Lifecycle s.executionState s.terminal)
    (S := SnapshotAdvances eventualStates)
    (fun s hs => (sound_of_mem_snapshotsOf hs).lifecycle)
    (fun a b _ _ => snapshotAdvances_iff (a := a) (b := b))
    (fun a b c ha _ hc => snapshotAdvances_trans ha hc) hchain
  rw [← hsampled]
  constructor
  · intro hall
    constructor
    · intro _ hsnapshots
      obtain ⟨sample, hsample, rfl⟩ := List.sublist_filterMap_iff.1 hsnapshots
      exact (observeSnapshots_fresh_iff.1 (hall sample hsample)).2.2.1
    · intro sample hsample
      exact (observeSnapshots_fresh_iff.1 (hall sample hsample)).2.2.2
  · rintro ⟨hchains, hlines⟩ sample hsample
    refine observeSnapshots_fresh_iff.2 ⟨?_, ?_, ?_, hlines sample hsample⟩
    · intro k hk
      exact hnumbers k (hk.trans_le hsample.length_le)
    · intro value hv
      exact hvalues value (hsample.subset hv)
    · exact hchains _ (hsample.filterMap _)

end Samples

end Bridge

/-! ### The worker and the bridge -/

/-- **Which histories are accepted in every sample**, by the worker and by the bridge. -/
theorem samples_accepted_iff [PyFloat φ] [IsoFormat] [RelayHmac] (config : BridgeConfig) :
    (∀ history : List (NativeDocuments φ),
      (∀ documents ∈ history, ∃ value, Worker.nativeExecutionDocuments value = .ok documents) →
      NativeHistory history →
      ((∀ sample : List (NativeDocuments φ), sample.Sublist history → NativeHistory sample) ↔
        history.Pairwise fun a b =>
          ¬ Relapse a.executionRecord.state b.executionRecord.state)) ∧
    (∀ values : List (Value (Number φ)), Bridge.Accepts config values →
      ((∀ sample : List (Value (Number φ)), sample.Sublist values → Bridge.Accepts config sample) ↔
        ((snapshotsOf values).Pairwise fun a b =>
          ¬ Relapse a.executionState b.executionState) ∧
        ∀ sample : List (Value (Number φ)), sample.Sublist values →
          LinesFit config 0 (newEvents 0 none (snapshotsOf sample)))) := by
  constructor
  · intro history hread h
    refine native_samples_accepted_iff history (fun documents hdocs => ?_) h
    obtain ⟨value, hv⟩ := hread documents hdocs
    exact Worker.readFrom_of_nativeExecutionDocuments hv
  · intro values h
    exact Bridge.snapshot_samples_accepted_iff h

/-- A signature that is always the same. -/
@[reducible]
def sampleHmac : RelayHmac where
  hexdigest _ _ := "0"

/-- A bridge for the pipeline of the sample. -/
def sampleConfig : BridgeConfig where
  relayToken := "relay"
  expectedServerArtifactDigest := "sha256"
  observedServerArtifactDigest := "sha256"
  expectedPipelineId := "pipe"

/-- The identity of a job of SLURM. -/
def jobIdentity : Fields (Number Int) :=
  [("execution_id", .str "run-1"), ("pipeline_id", .str "pipe"), ("mode", .str "scheduler"),
    ("scheduler_provider", .str "slurm"), ("scheduler_native_id", .str "42"), ("cluster", .null)]

/-- Its package, after a number of events. -/
def jobPackage (eventCount : Nat) (latest : Value (Number Int)) : Value (Number Int) :=
  .dict [("package_id", .str "p"), ("package_name", .str "sim"),
    ("event_count", .num (.int eventCount)), ("latest", latest)]

/-- The first event of the package. -/
def jobEvent : Value (Number Int) :=
  .dict [("schema_version", .str eventSchema), ("package_name", .str "sim"),
    ("package_id", .str "p"), ("execution_id", .str "run-1"), ("label", .str "step"),
    ("state", .str "running"), ("sequence", .num (.int 1)), ("observed_at_epoch", .num (.int 1)),
    ("determinate", .bool false), ("metadata", .dict [])]

/-- Its progress in a state. -/
def jobProgress (packages : List (Value (Number Int))) (state : String) : Value (Number Int) :=
  .dict [("schema_version", .str progressSchema), ("execution_id", .str "run-1"),
      ("pipeline_id", .str "pipe"), ("execution_state", .str state), ("terminal", .bool false),
      ("packages", .list packages)]

/-- Its documents in a state. -/
def jobDocuments (packages : List (Value (Number Int))) (state : String) : Value (Number Int) :=
  .dict [("execution_handle", .dict (("schema_version", .str handleSchema) :: jobIdentity)),
      ("execution_record", .dict (("schema_version", .str recordSchema) :: jobIdentity ++
        [("pipeline_name", .str "pipe"), ("state", .str state), ("submitted", .bool true),
          ("terminal", .bool false), ("created_at", .str "2026-07-01T12:00:00Z"),
          ("updated_at", .str "2026-07-01T12:00:00Z"), ("return_code", .null), ("error", .null),
          ("metadata", .dict [("submission", .dict
            [("schema_version", .str submissionSchema), ("execution_id", .str "run-1"),
              ("provider", .str "slurm"), ("scheduler_job_id", .str "42"),
              ("submitted", .bool true), ("identity_source", .str "scheduler_submit_api")])])])),
      ("progress", jobProgress packages state)]

/-- The worker takes the first two steps of three documents, and not the one over the second. -/
def refusesSkip [PyFloat φ] [IsoFormat] (first second third : Value (Number φ)) : Bool :=
  match Worker.nativeExecutionDocuments first, Worker.nativeExecutionDocuments second,
    Worker.nativeExecutionDocuments third with
  | .ok a, .ok b, .ok c => (validateNativeTransition a b).isOk &&
      (validateNativeTransition b c).isOk && !(validateNativeTransition a c).isOk
  | _, _, _ => false

/-- **A poll that misses `unknown` is refused**, by the worker and by the bridge: a job that was
running, was lost from sight and is queued again. -/
theorem missed_unknown_refused :
    (¬ ∀ history : List (NativeDocuments Int), (∀ documents ∈ history, ∃ value,
        @Worker.nativeExecutionDocuments Int sampleFloat sampleIsoFormat value = .ok documents) →
      @NativeHistory Int sampleFloat sampleIsoFormat history →
      ∀ sample : List (NativeDocuments Int), sample.Sublist history →
        @NativeHistory Int sampleFloat sampleIsoFormat sample) ∧
    (¬ ∀ values : List (Value (Number Int)),
      @Bridge.Accepts Int sampleFloat sampleHmac sampleConfig values →
      ∀ sample : List (Value (Number Int)), sample.Sublist values →
        @Bridge.Accepts Int sampleFloat sampleHmac sampleConfig sample) := by
  constructor
  · intro hall
    have hskip : @refusesSkip Int sampleFloat sampleIsoFormat (jobDocuments [] "running")
        (jobDocuments [] "unknown") (jobDocuments [] "submitted") = true := by decide +kernel
    unfold refusesSkip at hskip
    split at hskip
    · rename_i a b c ha hb hc
      simp only [Bool.and_eq_true, Bool.not_eq_true', isOk_iff] at hskip
      obtain ⟨⟨⟨⟨⟩, hab⟩, ⟨⟩, hbc⟩, hac⟩ := hskip
      have hsample := hall [a, b, c] (by
        simp only [List.forall_mem_cons, List.not_mem_nil, IsEmpty.forall_iff, implies_true,
          and_true]
        exact ⟨⟨_, ha⟩, ⟨_, hb⟩, ⟨_, hc⟩⟩) (by
        simp only [NativeHistory, List.isChain_cons_cons, List.isChain_singleton, and_true]
        exact ⟨hab, hbc⟩) [a, c] (by simp)
      rw [List.isChain_pair.1 hsample] at hac
      cases hac
    · cases hskip
  · intro hall
    have hok : (@Bridge.observeSnapshots Int sampleFloat sampleHmac sampleConfig
        [jobProgress [] "running", jobProgress [] "unknown", jobProgress [] "submitted"]
        Bridge.fresh).isOk = true := by decide +kernel
    have hskip : (@Bridge.observeSnapshots Int sampleFloat sampleHmac sampleConfig
        [jobProgress [] "running", jobProgress [] "submitted"] Bridge.fresh).isOk = false := by
      decide +kernel
    obtain ⟨_, hbridge⟩ := hall _ (isOk_iff.1 hok)
      [jobProgress [] "running", jobProgress [] "submitted"] (by simp)
    rw [hbridge] at hskip
    cases hskip

/-- The worker takes a step between two documents that is no relapse. -/
def takesStep [PyFloat φ] [IsoFormat] (first second : Value (Number φ)) : Bool :=
  match Worker.nativeExecutionDocuments first, Worker.nativeExecutionDocuments second with
  | .ok a, .ok b => (validateNativeTransition a b).isOk &&
      decide (¬ Relapse a.executionRecord.state b.executionRecord.state)
  | _, _ => false

/-- A job that is queued and then runs, with the first event of its package. -/
theorem samples_accepted_on_sample :
    (∃ queued running : NativeDocuments Int,
      @Worker.nativeExecutionDocuments Int sampleFloat sampleIsoFormat
        (jobDocuments [jobPackage 0 .null] "submitted") = .ok queued ∧
      @Worker.nativeExecutionDocuments Int sampleFloat sampleIsoFormat
        (jobDocuments [jobPackage 1 jobEvent] "running") = .ok running ∧
      ∀ sample : List (NativeDocuments Int), sample.Sublist [queued, running] →
        @NativeHistory Int sampleFloat sampleIsoFormat sample) ∧
    let values := [jobProgress [jobPackage 0 .null] "submitted",
      jobProgress [jobPackage 1 jobEvent] "running"]
    ((∀ sample : List (Value (Number Int)), sample.Sublist values →
        @Bridge.Accepts Int sampleFloat sampleHmac sampleConfig sample) ↔
      ((@snapshotsOf Int sampleFloat values).Pairwise fun a b =>
          ¬ Relapse a.executionState b.executionState) ∧
      ∀ sample : List (Value (Number Int)), sample.Sublist values →
        @LinesFit Int sampleFloat sampleHmac sampleConfig 0
          (newEvents 0 none (@snapshotsOf Int sampleFloat sample))) := by
  let := sampleFloat
  let := sampleIsoFormat
  let := sampleHmac
  refine ⟨?_, (samples_accepted_iff sampleConfig).2 _ (isOk_iff.1 (by decide +kernel))⟩
  have hstep : takesStep (jobDocuments [jobPackage 0 .null] "submitted")
      (jobDocuments [jobPackage 1 jobEvent] "running") = true := by decide +kernel
  unfold takesStep at hstep
  split at hstep
  · rename_i queued running hqueued hrunning
    rw [Bool.and_eq_true, isOk_iff, decide_eq_true_eq] at hstep
    obtain ⟨⟨⟨⟩, hadv⟩, hrelapse⟩ := hstep
    refine ⟨queued, running, hqueued, hrunning,
      ((samples_accepted_iff sampleConfig).1 [queued, running] ?_ ?_).2 ?_⟩
    · simp only [List.forall_mem_cons, List.not_mem_nil, IsEmpty.forall_iff, implies_true, and_true]
      exact ⟨⟨_, hqueued⟩, ⟨_, hrunning⟩⟩
    · exact List.isChain_pair.2 hadv
    · exact List.pairwise_pair.2 hrelapse
  · cases hstep

end ClioQueue.Jarvis
