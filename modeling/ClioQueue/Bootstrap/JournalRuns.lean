/-
# Runs on one journal

A run starts from a disk on which `create_journal` has returned and makes calls on the same
journal in any order, each stopped after any durable step, with other changes off the way to the
journal between them.  `journal_sound`: as long as no discard finds an owned path on the way to the
journal with its recorded identity, the journal can always be loaded, nothing recorded is taken
back, a terminal journal does not change, and behind the boundary recovery goes forward and a
discard removes nothing.

The condition is needed: `record_owned_path` and the creators take the home from the journal's
place, `discard_full_transaction` from its caller, who can name a home for which a directory above
the journal is an owned path (`nested_journal_discarded`).
-/

import ClioQueue.Bootstrap.JournalCalls

namespace ClioQueue.Bootstrap

open Durable Durable.Prog

/-! ### Creation -/

section

variable {host : Host} {path : Path} {disk disk' : Disk} {value : Dict} {supply : Stream' Chance}

/-- A directory that is created is there afterwards, at a normalized path without links, and the
descriptor is its own. -/
theorem wp_createAbsoluteDirectory {directory : Path} {Q : Descriptor → Disk → Stream' Chance → Prop}
    (hQ : ∀ opened disk supply entry, directory.isNormalized = true →
      disk.walk [] (resolveSitePrefix host directory).names =
        .ok (resolveSitePrefix host directory).names →
      disk.find (resolveSitePrefix host directory).names = some entry →
      opened = ⟨(resolveSitePrefix host directory).names, entry.stat.device, entry.stat.inode⟩ →
      Q opened disk supply) :
    wp (createAbsoluteDirectory host directory) (fun _ => True) Q (fun _ _ _ => True) disk
      supply := by
  have hopen : ∀ t w, wp (openAbsoluteDirectory host directory) (fun _ => True) Q
      (fun _ _ _ => True) t w := fun t w =>
    wp_openAbsoluteDirectory (fun opened entry => hQ opened t w entry) fun _ => trivial
  unfold createAbsoluteDirectory
  refine wp_ofExcept_then (fun normalized _ => ?_) fun _ _ => trivial
  rw [wp_bind, wp_look]
  have hmake : wp (makeDirectories host [] (resolveSitePrefix host normalized).names >>=
      fun _ => openAbsoluteDirectory host directory) (fun _ => True) Q (fun _ _ _ => True) disk
      supply := by
    exact wp_then (wp_trivial _) fun _ t w _ => hopen t w
  split
  · exact (wp_bind _ _).2 ((wp_raise _).2 trivial)
  · exact hmake

/-- **A new journal** is on the disk, and sound. -/
theorem wp_createJournal (request : JournalRequest) :
    wp (createJournal host path request) (fun _ => True)
      (fun created t _ => Holds host path t (Json.sortFields created) ∧
        Journal.Sound (Json.sortFields created))
      (fun _ _ _ => True) disk supply := by
  unfold createJournal
  simp only [demand, wp_bind, wp_require, wp_ofExcept]
  refine ⟨fun _ => ⟨fun _ => ⟨fun _ => ⟨fun owned hown => ?_, fun _ _ => trivial⟩,
    fun _ => trivial⟩, fun _ => trivial⟩, fun _ => trivial⟩
  refine wp_imp (wp_trivial _) fun _ t w _ => ?_
  rw [wp_chance]
  refine ⟨fun _ hval => ?_, fun _ _ => trivial⟩
  set value := newJournal request owned w.head.text
  have hsound : Journal.Sound value :=
    ⟨validateJournal_ok_iff.1 hval, newJournal_distinct hown _⟩
  unfold withJournalParent
  simp only [demand, wp_bind, wp_require, wp_ofExcept, wp_mapError]
  refine ⟨fun normalized hnorm => ⟨fun hname => ?_, fun _ => trivial⟩, fun _ _ => trivial⟩
  unfold normalizedAbsolute at hnorm
  split at hnorm
  · rename_i hpath
    cases hnorm
    refine wp_createAbsoluteDirectory fun opened u x entry hpar hwalk hent hopened => ?_
    subst hopened
    rw [wp_look, hent]
    refine ⟨fun hpriv => ?_, fun _ => trivial⟩
    have hready : Ready host path u := ⟨hpath, hname, hpar, hwalk, entry, hent, hpriv⟩
    rw [wp_finish, wp_bind, wp_look, wp_bind, wp_ofExcept]
    have hlast : ∀ t w, wp (verifyParent host path.parent
        ⟨(resolveSitePrefix host path.parent).names, entry.stat.device, entry.stat.inode⟩)
        (fun _ => True) (fun _ _ _ => True) (fun _ _ _ => True) t w := fun t w => wp_trivial _
    refine ⟨fun previous _ => ?_, fun _ _ => hlast _ _⟩
    rw [wp_bind]
    refine wp_mono (wp_atomicJsonAt rfl hready) (fun _ _ => trivial) (fun _ t w ht => ?_)
      fun _ _ _ _ => hlast _ _
    rw [wp_pure]
    exact (ReadOnlyCalls.verifyParent _ _).wp (fun _ _ => ⟨ht, hsound.sorted⟩) fun _ _ => trivial
  · cases hnorm

/-! ### Runs -/

/-- A call on the journal. -/
inductive JournalCall where
  | advanceJournal (state : String) (preparedGeneration : Option String)
  | recordPhase (phase identity : String)
  | recordOwnedPath (name : String)
  | createOwnedDirectory (name : String)
  | createOwnedSymlink (name target : String)
  | copyOwnedFile (name : String) (source : Path) (mode : Nat)
  | discardFullTransaction (home : Path)

namespace JournalCall

/-- The program of a call. -/
def program (host : Host) (path : Path) : JournalCall → JournalProg Dict
  | advanceJournal state generation => Bootstrap.advanceJournal host path state generation
  | recordPhase phase identity => Bootstrap.recordPhase host path phase identity
  | recordOwnedPath name => Bootstrap.recordOwnedPath host path name
  | createOwnedDirectory name => Bootstrap.createOwnedDirectory host path name
  | createOwnedSymlink name target => Bootstrap.createOwnedSymlink host path name target
  | copyOwnedFile name source mode => Bootstrap.copyOwnedFile host path name source mode
  | discardFullTransaction home => Bootstrap.discardFullTransaction host path home

/-- The condition of a call: a discard finds no owned path on the way to the journal that still
has its recorded identity. -/
def Meets (host : Host) (path : Path) (disk : Disk) : JournalCall → Prop
  | discardFullTransaction home => ∀ value owned, Holds host path disk value →
      coerceOwnedPaths (value.get "owned_paths") = .ok owned → Apart host path home disk owned
  | _ => True

end JournalCall

/-- The encoding of the journal on the disk stays within `MAX_JOURNAL_BYTES`. -/
def fits (host : Host) (path : Path) (disk : Disk) : Bool :=
  match disk.find (journalPlace host path) with
  | some ⟨_, .file content⟩ => content.size ≤ maxJournalBytes
  | _ => true

/-- What a run leads to. -/
inductive Reaches (host : Host) (path : Path) (disk : Disk) : Disk → Prop where
  | refl : Reaches host path disk disk
  | call {disk' disk'' : Disk} {supply : Stream' Chance} (call : JournalCall)
      (run : Reaches host path disk disk') (meets : call.Meets host path disk')
      (stop : disk'' ∈ (call.program host path).halts disk' supply)
      (size : fits host path disk'' = true) : Reaches host path disk disk''
  | outside {disk' disk'' : Disk} (run : Reaches host path disk disk')
      (same : Same host path disk' disk'') : Reaches host path disk disk''

section

variable (h : Holds host path disk value)

include h

theorem Holds.size (hfits : fits host path disk = true) :
    Json.fileBytes (.obj value) ≤ maxJournalBytes := by
  obtain ⟨⟨_, body⟩, hent, hpriv⟩ := h.entry
  have hbody : body = .file (.document (.obj value)) := (not_directory_of_private hpriv).2
  subst hbody
  rw [fits, hent] at hfits
  exact of_decide_eq_true hfits

theorem fits_of_same (hsame : Same host path disk disk')
    (hfits : fits host path disk = true) : fits host path disk' = true := by
  obtain ⟨⟨_, body⟩, hent, hpriv⟩ := (h.of_same hsame).entry
  have hbody : body = .file (.document (.obj value)) := (not_directory_of_private hpriv).2
  subst hbody
  rw [fits, hent]
  exact decide_eq_true (h.size hfits)

/-- **One call**, stopped anywhere. -/
theorem leaves_call (hsound : Journal.Sound value)
    (hfits : fits host path disk = true) {call : JournalCall} (hmeets : call.Meets host path disk) :
    Leaves (Evolved host path value) (call.program host path) disk supply := by
  have hsize := h.size hfits
  cases call with
  | advanceJournal state generation => exact leaves_advanceJournal h hsound hsize state generation
  | recordPhase phase identity => exact leaves_recordPhase h hsound hsize phase identity
  | recordOwnedPath name => exact leaves_recordOwnedPath h hsound hsize name
  | createOwnedDirectory name => exact leaves_createOwnedDirectory h hsound hsize name
  | createOwnedSymlink name target => exact leaves_createOwnedSymlink h hsound hsize name target
  | copyOwnedFile name source mode => exact leaves_copyOwnedFile h hsound hsize name source mode
  | discardFullTransaction =>
    exact leaves_discardFullTransaction h hsound hsize fun owned hown =>
      hmeets value owned h hown

/-- **A run** keeps a sound journal on the disk, evolved from the first one. -/
theorem Reaches.evolved (hsound : Journal.Sound value)
    (hfits : fits host path disk = true) (hrun : Reaches host path disk disk') :
    Evolved host path value disk' ∧ fits host path disk' = true := by
  induction hrun with
  | refl => exact ⟨evolved_of_same h hsound same_self, hfits⟩
  | call call run hmeets hstop hsize ih =>
    obtain ⟨⟨middle, hmid, hsound', hevolves⟩, hfits'⟩ := ih
    obtain ⟨last, hlast, hsound'', hevolves'⟩ := wp_halts
      (leaves_call hmid hsound' hfits' hmeets) (evolved_of_same hmid hsound' same_self) _
      hstop
    exact ⟨⟨last, hlast, hsound'', hevolves.trans hevolves'⟩, hsize⟩
  | outside run hsame ih =>
    obtain ⟨⟨middle, hmid, hsound', hevolves⟩, hfits'⟩ := ih
    exact ⟨⟨middle, hmid.of_same hsame, hsound', hevolves⟩, fits_of_same hmid hsame hfits'⟩

end

/-- What `load_journal` answers. -/
def Loads (host : Host) (path : Path) (disk : Disk) (value : Dict) : Prop :=
  ∀ supply, (loadJournal host path).answer disk supply = .ok value

theorem Holds.loads (h : Holds host path disk value) (hsound : Journal.Sound value)
    (hfits : fits host path disk = true) : Loads host path disk value := by
  intro supply
  have hload : wp (loadJournal host path) _ _ _ disk supply :=
    wp_loadJournal h hsound (h.size hfits)
  obtain ⟨_, hloaded⟩ := wp_ok (wp_imp hload fun _ _ _ h => h)
  have hres := wp_result hload hloaded
  rw [← hres.1]
  exact hloaded

theorem Loads.unique {value' : Dict} (h : Loads host path disk value)
    (h' : Loads host path disk value') : value' = value := by
  have hsame := (h' (fun _ => ⟨0, 0, 0, 0, ⟨0, 0⟩, ""⟩)).symm.trans (h _)
  exact Except.ok.inj hsame

/-- Behind the boundary the plan is forward. -/
theorem recoveryMode_forward (hsound : Journal.Sound value) (hopen : ¬ Terminal value)
    (hbdry : value.get "irreversible_boundary" = .bool true) :
    recoveryMode value = .ok "forward" := by
  obtain ⟨state, -, hst⟩ := hsound.valid.state
  have hstring : string value "state" = .ok state := string_eq_ok.2 hst
  have hterm : ¬ terminalStates.contains state = true := fun hmem =>
    hopen ⟨state, List.contains_iff_mem.1 hmem, hst⟩
  unfold recoveryMode
  rw [hstring]
  show (if terminalStates.contains state = true then pure "none"
    else if value.get "irreversible_boundary" = .bool true then pure "forward" else _) = _
  rw [if_neg hterm, if_pos hbdry]
  rfl

/-- What `recovery_plan` answers behind the boundary. -/
theorem recoveryPlan_forward (hloads : Loads host path disk value)
    (hmode : recoveryMode value = .ok "forward") (supply : Stream' Chance) :
    (recoveryPlan host path).answer disk supply =
      .ok (Dict.set value "recovery_mode" (.str "forward")) := by
  unfold recoveryPlan
  rw [answer_bind_ok (hloads supply), hmode]
  rfl

end

/-- **The journal is a sound recovery record.**  In a run from a new journal, in which no discard
finds an owned path on the way to the journal with its recorded identity, the journal can be loaded
at every stop; behind the boundary the plan is forward and a discard is refused with nothing
removed; and later the boundary, the recorded identities and a terminal journal are the same. -/
theorem journal_sound {host : Host} {path : Path} {request : JournalRequest} {disk₀ disk : Disk}
    {supply₀ : Stream' Chance} {created : Dict}
    (hmade : (createJournal host path request).answer disk₀ supply₀ = .ok created)
    (hfits : fits host path ((createJournal host path request).run disk₀ supply₀).store = true)
    (hrun : Reaches host path ((createJournal host path request).run disk₀ supply₀).store disk) :
    ∃ value, Loads host path disk value ∧
      (value.get "irreversible_boundary" = .bool true → ¬ Terminal value →
        (∀ supply, ∃ plan, (recoveryPlan host path).answer disk supply = .ok plan ∧
          plan.get "recovery_mode" = .str "forward") ∧
        ∀ home supply, ((discardFullTransaction host path home).run disk supply).trail = [] ∧
          ∃ error, (discardFullTransaction host path home).answer disk supply = .error error) ∧
      ∀ disk' value', Reaches host path disk disk' → Loads host path disk' value' →
        Keeps value value' ∧ (Terminal value → value' = value) := by
  obtain ⟨hholds₀, hsound₀⟩ := wp_result (wp_createJournal request) hmade
  obtain ⟨⟨value, hholds, hsound, -⟩, hfits'⟩ := Reaches.evolved hholds₀ hsound₀ hfits hrun
  have hloads := hholds.loads hsound hfits'
  refine ⟨value, hloads, fun hbdry hopen => ⟨fun supply => ?_, fun home supply => ?_⟩,
    fun disk' value' hrun' hloads' => ?_⟩
  · have hmode := recoveryMode_forward hsound hopen hbdry
    refine ⟨_, recoveryPlan_forward hloads hmode supply, ?_⟩
    rw [Dict.get_set, if_pos rfl]
  · have href : ∀ owned, discardableOwnedPaths value ≠ .ok owned := fun owned hown =>
      (discardableOwnedPaths_eq_ok hown).2.1 hbdry
    have hwp : wp (discardFullTransaction host path home) _ _ _ disk supply :=
      discard_refused hholds hsound (hholds.size hfits') home href
    refine ⟨List.eq_nil_iff_forall_not_mem.2 hwp.1, ?_⟩
    rcases hans : (discardFullTransaction host path home).answer disk supply with error | _
    · exact ⟨error, rfl⟩
    · exact (wp_result hwp hans).elim
  · obtain ⟨⟨_, hnext, hsound', hevolves⟩, hfits''⟩ :=
      Reaches.evolved hholds hsound hfits' hrun'
    obtain rfl := (hnext.loads hsound' hfits'').unique hloads'
    exact ⟨hevolves.keeps, hevolves.terminal⟩

/-! ### A journal below an owned directory -/

/-- A machine with one user and no links in the way to the home. -/
def sampleHost : Host where
  uid := 1000
  sitePrefix := Path.ofString "/h"
  realPrefix := Path.ofString "/h"
  sha256 := fun _ => String.ofList (List.replicate 64 'a')
  loads := fun _ => .error (.journal "bootstrap transaction journal is invalid")

/-- A private directory. -/
def sampleDirectory (inode : Nat) : Entry FileContent :=
  ⟨⟨1, inode, 0, 0, 1000, 0o700, 2⟩, .directory⟩

/-- The home `/h` with the relay namespace. -/
def sampleDisk : Disk :=
  [([], sampleDirectory 2), (["h"], sampleDirectory 3), (["h", ".local"], sampleDirectory 4),
    (["h", ".local", "share"], sampleDirectory 5),
    (["h", ".local", "share", "clio-relay"], sampleDirectory 6)]

/-- New inodes one after the other. -/
def sampleSupply : Stream' Chance := fun n => ⟨1, 100 + n, 7, 8, ⟨9, 10⟩, toString n⟩

/-- A first install that owns one directory. -/
def sampleRequest (directory : String) : JournalRequest where
  invocationId := "install-1"
  desiredFingerprint := String.ofList (List.replicate 64 'b')
  mode := "full"
  ownedPaths := ⟨[("tools", .obj [("path", .str directory), ("kind", .str "directory")])],
    List.nodup_singleton _⟩
  serviceName := none
  serviceWasActive := none
  serviceWasEnabled := none

/-- The journal of an ordinary home. -/
def samplePath : Path := Path.ofString "/h/.local/share/clio-relay/j.json"

/-- The first install at an ordinary home. -/
def sampleCreation : Outcome Disk (Stream' Chance) JournalError Dict :=
  (createJournal sampleHost samplePath (sampleRequest "/h/.local/share/clio-relay/tools")).run
    sampleDisk sampleSupply

theorem exists_ok_of_isOk {α : Type} {result : Except JournalError α} (h : result.isOk = true) :
    ∃ a, result = .ok a := by
  rcases result with _ | a
  · cases h
  · exact ⟨a, rfl⟩

/-- The creation of the owned directory. -/
def sampleDirectoryCreation : Outcome Disk (Stream' Chance) JournalError Dict :=
  (createOwnedDirectory sampleHost samplePath "tools").run sampleCreation.store
    sampleCreation.supply

/-- After an owned directory was created and recorded, the sample journal loads. -/
theorem journal_sound_created :
    ∃ value, Loads sampleHost samplePath sampleDirectoryCreation.store value := by
  have hfacts : (sampleCreation.result.isOk && fits sampleHost samplePath sampleCreation.store &&
      fits sampleHost samplePath sampleDirectoryCreation.store) = true := by decide +kernel
  rw [Bool.and_eq_true, Bool.and_eq_true] at hfacts
  obtain ⟨⟨hisOk, hfits⟩, hfits'⟩ := hfacts
  obtain ⟨_, hcreate⟩ := exists_ok_of_isOk hisOk
  have hrun : Reaches sampleHost samplePath sampleCreation.store sampleDirectoryCreation.store :=
    .call (.createOwnedDirectory "tools") .refl trivial (List.mem_append_right _ (.head _)) hfits'
  obtain ⟨value, hloads, -⟩ := journal_sound hcreate hfits hrun
  exact ⟨value, hloads⟩

/-- A journal below the relay namespace of another home. -/
def nestedPath : Path :=
  Path.ofString "/h/.local/share/clio-relay/.local/share/clio-relay/j.json"

/-- The first install that owns a directory above its own journal. -/
def nestedCreation : Outcome Disk (Stream' Chance) JournalError Dict :=
  (createJournal sampleHost nestedPath (sampleRequest "/h/.local/share/clio-relay/.local")).run
    sampleDisk sampleSupply

/-- The record of that directory. -/
def nestedRecord : Outcome Disk (Stream' Chance) JournalError Dict :=
  (recordOwnedPath sampleHost nestedPath "tools").run nestedCreation.store nestedCreation.supply

/-- The discard from the home above. -/
def nestedDiscard : Outcome Disk (Stream' Chance) JournalError Dict :=
  (discardFullTransaction sampleHost nestedPath (Path.ofString "/h")).run nestedRecord.store
    nestedRecord.supply

/-- **The journal is lost** when it is discarded from the home above: no limit is exceeded, and it
cannot be loaded any more. -/
theorem nested_journal_discarded :
    (∃ created, nestedCreation.result = .ok created) ∧
      (∃ recorded, nestedRecord.result = .ok recorded) ∧
      fits sampleHost nestedPath nestedCreation.store = true ∧
      fits sampleHost nestedPath nestedRecord.store = true ∧
      fits sampleHost nestedPath nestedDiscard.store = true ∧
      ¬ ∃ value, Loads sampleHost nestedPath nestedDiscard.store value := by
  have hfacts : (nestedCreation.result.isOk && nestedRecord.result.isOk &&
      fits sampleHost nestedPath nestedCreation.store &&
      fits sampleHost nestedPath nestedRecord.store &&
      fits sampleHost nestedPath nestedDiscard.store &&
      !((loadJournal sampleHost nestedPath).answer nestedDiscard.store sampleSupply).isOk) =
        true := by decide +kernel
  simp only [Bool.and_eq_true, Bool.not_eq_true'] at hfacts
  obtain ⟨⟨⟨⟨⟨hcreate, hrecorded⟩, hfits⟩, hfits'⟩, hfits''⟩, hload⟩ := hfacts
  refine ⟨exists_ok_of_isOk hcreate, exists_ok_of_isOk hrecorded, hfits, hfits', hfits'', ?_⟩
  rintro ⟨value, hloads⟩
  rw [hloads sampleSupply] at hload
  cases hload

end ClioQueue.Bootstrap
