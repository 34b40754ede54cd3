/-
# What one call leaves of the journal

Every store that a call leaves, wherever it stops, holds a sound journal that has evolved from
the one before (`Evolved`): the old document or an edit of it.  The entries a call creates are
off the way to the journal, because nothing stood at their places.  What `discard` removes is at or
below an owned path that still has its recorded identity; it must not do so on the way to the
journal (`Apart`).
-/

import ClioQueue.Bootstrap.JournalDisk

namespace ClioQueue.Bootstrap

open Durable Durable.Prog

/-- What was recorded is kept, and a terminal journal is unchanged. -/
structure Evolves (value value' : Dict) : Prop where
  keeps : Keeps value value'
  terminal : Terminal value → value' = value

theorem Evolves.trans {value value' value'' : Dict} (h : Evolves value value')
    (h' : Evolves value' value'') : Evolves value value'' := by
  refine ⟨h.keeps.trans h'.keeps, fun hterm => ?_⟩
  have hsame := h.terminal hterm
  rw [← hsame] at hterm
  exact (h'.terminal hterm).trans hsame

/-- The disk holds a sound journal that has evolved from `value`. -/
def Evolved (host : Host) (path : Path) (value : Dict) (disk : Disk) : Prop :=
  ∃ value', Holds host path disk value' ∧ Journal.Sound value' ∧ Evolves value value'

/-- The same way to the journal. -/
abbrev Same (host : Host) (path : Path) : Disk → Disk → Prop :=
  FileTree.SameAlong (journalPlace host path)

section

variable {host : Host} {path : Path} {disk disk' : Disk} {value edited : Dict}
  {supply : Stream' Chance} {home : Descriptor} {C : Disk → Prop} {entry : Entry FileContent}
  {E : JournalError → Disk → Stream' Chance → Prop} {owned : List (String × OwnedPath)}
  {item : OwnedPath} {homePath : Path} {place : Place} {named : String × OwnedPath}

theorem evolved_of_same (h : Holds host path disk value) (hsound : Journal.Sound value)
    (hsame : Same host path disk disk') : Evolved host path value disk' :=
  ⟨value, h.of_same hsame, hsound, .refl value, fun _ => rfl⟩

theorem evolved_of_edits (h : Edits value edited)
    (hholds : Holds host path disk' (Json.sortFields edited)) : Evolved host path value disk' :=
  ⟨_, hholds, h.sound.sorted, h.keeps.trans h.sound.keeps_sorted, fun hterm =>
    absurd hterm h.open_⟩

/-- From an edit on, while it is written. -/
theorem evolved_of_either (h : Holds host path disk value) (hsound : Journal.Sound value)
    (hedits : Edits value edited)
    (hdisk : Same host path disk disk' ∨ Holds host path disk' (Json.sortFields edited)) :
    Evolved host path value disk' :=
  hdisk.elim (evolved_of_same h hsound) (evolved_of_edits hedits)

theorem same_self : Same host path disk disk := FileTree.SameAlong.refl _ _

/-- Looking changes nothing on the way to the journal. -/
theorem within_same {α : Type} {m : JournalProg α} (h : ReadOnly m) :
    Within (Same host path) m := fun _ _ =>
  h.wp (fun _ _ => same_self) fun _ _ => same_self

/-- **Load, edit and write.** -/
theorem leaves_editJournal {edit : Descriptor → Dict → JournalProg Dict}
    (h : Holds host path disk value) (hsound : Journal.Sound value)
    (hsize : Json.fileBytes (.obj value) ≤ maxJournalBytes)
    (hedit : ∀ parent, parent.place = parentPlace host path → wp (edit parent value)
      (Same host path disk) (fun edited t _ => Same host path disk t ∧ Edits value edited)
      (fun _ t _ => Same host path disk t) disk supply) :
    Leaves (Evolved host path value) (editJournal host path edit) disk supply := by
  refine leaves_withJournalParent (evolved_of_same h hsound same_self) fun parent hpar _ => ?_
  unfold Leaves
  rw [wp_bind]
  refine wp_loadJournalAt hpar h hsound hsize fun identity => ?_
  rw [wp_bind]
  refine wp_mono (hedit parent hpar) (fun t ht => evolved_of_same h hsound ht)
    (fun edited t w ht => ?_) fun _ t _ ht => evolved_of_same h hsound ht
  obtain ⟨hsame, hedits⟩ := ht
  have hholds := h.of_same hsame
  rw [wp_bind]
  refine wp_mono (wp_atomicJsonAt hpar hholds.toReady)
    (fun u hu => evolved_of_either hholds hsound hedits hu) (fun _ u _ hu => ?_)
    fun _ u _ hu => evolved_of_either hholds hsound hedits hu
  exact (wp_pure _).2 (evolved_of_edits hedits hu)

/-! ### The calls on the document -/

section

variable (h : Holds host path disk value) (hsound : Journal.Sound value)
  (hsize : Json.fileBytes (.obj value) ≤ maxJournalBytes)

include h hsound hsize

/-- **One `advance_journal`.** -/
theorem leaves_advanceJournal (state : String) (generation : Option String) :
    Leaves (Evolved host path value) (advanceJournal host path state generation) disk supply := by
  refine leaves_editJournal h hsound hsize fun parent _ => ?_
  rw [wp_bind, wp_chance, wp_ofExcept]
  exact ⟨fun edited hedited => ⟨same_self, advanceValue_edits hsound hedited⟩, fun _ _ => same_self⟩

/-- **One `record_phase`.** -/
theorem leaves_recordPhase (phase identity : String) :
    Leaves (Evolved host path value) (recordPhase host path phase identity) disk supply := by
  have hkept := evolved_of_same h hsound same_self
  unfold recordPhase demand Leaves
  simp only [wp_bind, wp_require]
  refine ⟨fun _ => ⟨fun _ => ?_, fun _ => hkept⟩, fun _ => hkept⟩
  refine leaves_editJournal h hsound hsize fun parent _ => ?_
  rw [wp_bind, wp_chance, wp_ofExcept]
  exact ⟨fun edited hedited => ⟨same_self, recordPhaseValue_edits hsound hedited⟩,
    fun _ _ => same_self⟩

end

/-! ### Recording an owned path -/

theorem wp_ownedIdentityFromHome {target : Path} {kind : OwnedKind}
    {Q : Dict → Disk → Stream' Chance → Prop}
    (hQ : ∀ observed w, Json.Distinct (.obj observed) → Q observed disk w)
    (hE : ∀ error w, E error disk w) :
    wp (ownedIdentityFromHome host home homePath target kind) C Q E disk supply := by
  unfold ownedIdentityFromHome
  simp only [wp_bind, wp_ofExcept]
  refine ⟨fun normalized _ => ⟨fun relative _ => ?_, fun _ _ => hE _ _⟩, fun _ _ => hE _ _⟩
  refine (ReadOnlyCalls.openTargetParentAt _ _).wp (fun found w => ?_) fun _ _ => hE _ _
  rcases found with _ | parent
  · exact (wp_raise _).2 (hE _ _)
  · unfold entryBelow
    rw [wp_bind, wp_look]
    rcases relative.getLast?.bind fun name => disk.find (parent.place ++ [name]) with _ | _
    · exact (wp_raise _).2 (hE _ _)
    · refine wp_ofExcept_then (fun found hfound => ?_) fun _ _ => hE _ _
      unfold demand
      exact wp_require_then (fun _ => (wp_pure _).2 (hQ _ _ (ownedIdentityAt_distinct hfound)))
        fun _ => hE _ _

/-- **One `record_owned_path`.** -/
theorem leaves_recordOwnedPath (h : Holds host path disk value) (hsound : Journal.Sound value)
    (hsize : Json.fileBytes (.obj value) ≤ maxJournalBytes) (name : String) :
    Leaves (Evolved host path value) (recordOwnedPath host path name) disk supply := by
  have hkept := evolved_of_same h hsound same_self
  unfold recordOwnedPath demand Leaves
  simp only [wp_bind, wp_require]
  refine ⟨fun _ => ?_, fun _ => hkept⟩
  refine leaves_editJournal h hsound hsize fun parent _ => ?_
  simp only [wp_bind, wp_ofExcept]
  refine ⟨fun owned hown => ⟨fun item hitem => ⟨fun homePath _ => ?_, fun _ _ => same_self⟩,
    fun _ _ => same_self⟩, fun _ _ => same_self⟩
  refine (ReadOnlyCalls.openHome _ _ _ _).wp (fun home w => ?_) fun _ _ => same_self
  refine wp_ownedIdentityFromHome (fun observed w hdist => ?_) fun _ _ => same_self
  rw [wp_require]
  refine ⟨fun hsame => ?_, fun _ => same_self⟩
  rw [wp_chance]
  exact ⟨fun edited hedited => ⟨same_self,
    bindOwnedPath_edits hsound hown hitem hsame hdist hedited⟩, fun _ _ => same_self⟩

/-! ### Creating an owned path -/

/-- A program that creates at a place that is off the way. -/
theorem within_makeEntry (h : ¬ place <+: journalPlace host path) (mode : Nat) (size : Chance → Nat)
    (body : Body FileContent) :
    Within (Same host path) (makeEntry host place mode size body) := by
  intro _ _
  unfold makeEntry
  rw [wp_bind, wp_chance, wp_durably]
  exact ⟨FileTree.sameAlong_create h _ _, FileTree.sameAlong_create h _ _⟩

theorem within_copyFile (h : ¬ place <+: journalPlace host path) (source : Path) (mode : Nat) :
    Within (Same host path) (copyFile host source mode place) := by
  have hrefl : ∀ disk, Same host path disk disk := fun _ => same_self
  have htrans : ∀ s t u, Same host path s t → Same host path t u → Same host path s u :=
    fun _ _ _ => FileTree.SameAlong.trans
  refine within_bind htrans (within_same (ReadOnlyCalls.openAbsoluteDirectory _)) fun parent =>
    within_bind htrans (within_look hrefl _) fun found => ?_
  rcases found with _ | ⟨_, _ | _ | _ | _⟩
  · exact within_raise hrefl _
  · exact within_raise hrefl _
  · refine within_bind htrans (within_makeEntry h _ _ _) fun _ => ?_
    refine within_each hrefl htrans _ fun piece _ => ?_
    intro disk _
    rw [wp_bind, wp_chance, wp_durably]
    exact ⟨FileTree.sameAlong_write h _ _, FileTree.sameAlong_write h _ _⟩
  all_goals exact within_raise hrefl _

section

variable (h : Holds host path disk value) (hsound : Journal.Sound value)

include h hsound

/-- The record of an entry that has just been created. -/
theorem leaves_publishOwned
    {parent : Descriptor} (hpar : parent.place = parentPlace host path) {identity : FileIdentity}
    {refusal name : String} (hown : claimableOwnedPaths value refusal = .ok owned)
    (hitem : ownedItem owned name = .ok item) (hnew : item.identity.isNone = true) :
    Leaves (Evolved host path value)
      (publishOwned host path parent identity value owned name item place) disk supply := by
  have hkept := evolved_of_same h hsound same_self
  unfold publishOwned Leaves
  rw [wp_bind, wp_look]
  rcases disk.find place with _ | _
  · exact (wp_raise _).2 hkept
  refine wp_ofExcept_then (fun found hfound => ?_) fun _ _ => hkept
  unfold demand
  simp only [wp_bind, wp_require, wp_chance, wp_ofExcept]
  refine ⟨fun _ => ⟨fun edited hedited => ?_, fun _ _ => hkept⟩, fun _ => hkept⟩
  have hsame : (item.identity.all fun previous => previous.toDict == found.2) = true := by
    rw [Option.isNone_iff_eq_none.1 hnew]
    rfl
  have hedits := bindOwnedPath_edits hsound hown hitem hsame (ownedIdentityAt_distinct hfound)
    hedited
  refine wp_mono (wp_atomicJsonAt hpar h.toReady)
    (fun t ht => evolved_of_either h hsound hedits ht) (fun _ t w ht => ?_)
    fun _ t _ ht => evolved_of_either h hsound hedits ht
  have hwritten := evolved_of_edits hedits ht
  rw [wp_look]
  rcases t.find place with _ | _
  · exact (wp_raise _).2 hwritten
  · refine wp_ofExcept_then (fun current _ => ?_) fun _ _ => hwritten
    exact wp_require_then (fun _ => (wp_pure _).2 hwritten) fun _ => hwritten

section

variable (hsize : Json.fileBytes (.obj value) ≤ maxJournalBytes)

include hsize

/-- **One creation and its record.** -/
theorem leaves_createAndRecordOwnedPath (name : String) {create : Place → JournalProg Unit}
    (hcreate : ∀ place, ¬ place <+: journalPlace host path →
      Within (Same host path) (create place)) :
    Leaves (Evolved host path value) (createAndRecordOwnedPath host path name create) disk
      supply := by
  have hkept : Evolved host path value disk := evolved_of_same h hsound same_self
  unfold createAndRecordOwnedPath Leaves
  unfold demand
  refine wp_require_then (fun _ => ?_) fun _ => hkept
  refine leaves_withJournalParent hkept fun parent hpar _ => ?_
  unfold Leaves
  rw [wp_bind]
  refine wp_loadJournalAt hpar h hsound hsize fun identity => ?_
  simp only [wp_bind, wp_ofExcept, wp_require]
  refine ⟨fun owned hown => ⟨fun item hitem => ⟨fun hnew => ⟨fun homePath _ => ⟨fun _ _ =>
    ⟨fun relative _ => ?_, fun _ _ => hkept⟩, fun _ _ => hkept⟩, fun _ _ => hkept⟩, fun _ => hkept⟩,
    fun _ _ => hkept⟩, fun _ _ => hkept⟩
  refine (ReadOnlyCalls.openHome _ _ _ _).wp (fun home w => ?_) fun _ _ => hkept
  refine (ReadOnlyCalls.openTargetParentAt _ _).wp (fun found w => ?_) fun _ _ => hkept
  rcases found with _ | _
  · exact (wp_raise _).2 hkept
  rcases relative.getLast? with _ | _
  · exact (wp_raise _).2 hkept
  simp only [wp_bind, wp_look, wp_require]
  refine ⟨fun habsent => ?_, fun _ => hkept⟩
  have hoff := off_of_absent h (Option.isNone_iff_eq_none.1 habsent)
  refine (hcreate _ hoff).wp (fun t ht => evolved_of_same h hsound ht) (fun _ t w ht => ?_)
    fun _ t _ ht => evolved_of_same h hsound ht
  refine wp_imp (leaves_publishOwned (h.of_same ht) hsound hpar hown hitem hnew) fun _ u w hu => ?_
  refine (ReadOnlyCalls.verifyJournalParentFromHome _ _ _ _).wp (fun _ w => ?_) fun _ _ => hu
  exact (wp_pure _).2 hu

/-- **One `create_owned_directory`.** -/
theorem leaves_createOwnedDirectory (name : String) :
    Leaves (Evolved host path value) (createOwnedDirectory host path name) disk supply :=
  leaves_createAndRecordOwnedPath h hsound hsize name fun _ hplace =>
    within_makeEntry hplace _ _ _

/-- **One `create_owned_symlink`.** -/
theorem leaves_createOwnedSymlink (name target : String) :
    Leaves (Evolved host path value) (createOwnedSymlink host path name target) disk supply := by
  unfold createOwnedSymlink demand Leaves
  exact wp_require_then (fun _ => leaves_createAndRecordOwnedPath h hsound hsize name fun _ hplace =>
    within_makeEntry hplace _ _ _)
    fun _ => evolved_of_same h hsound same_self

/-- **One `copy_owned_file`.** -/
theorem leaves_copyOwnedFile (name : String) (source : Path) (mode : Nat) :
    Leaves (Evolved host path value) (copyOwnedFile host path name source mode) disk supply := by
  have hkept : Evolved host path value disk := evolved_of_same h hsound same_self
  unfold copyOwnedFile demand Leaves
  refine wp_require_then (fun _ => ?_) fun _ => hkept
  exact wp_ofExcept_then (fun _ _ => leaves_createAndRecordOwnedPath h hsound hsize name fun _ hplace =>
    within_copyFile hplace _ _)
    fun _ _ => hkept

end

end

/-! ### Discarding -/

theorem within_unlinkEntry (h : ¬ place <+: journalPlace host path) :
    Within (Same host path) (unlinkEntry place) := by
  intro _ _
  unfold unlinkEntry
  rw [wp_bind, wp_chance, wp_durably]
  exact ⟨FileTree.sameAlong_unlink h _, FileTree.sameAlong_unlink h _⟩

/-- Removing a directory that is not above the journal leaves the journal as it is, by induction on
the depth. -/
theorem within_removeDirectory (depth : Nat) :
    ∀ (place : Place) (display : Path), ¬ place <+: journalPlace host path →
      Within (Same host path) (removeDirectory depth place display) := by
  have hrefl : ∀ disk, Same host path disk disk := fun _ => same_self
  have htrans : ∀ s t u, Same host path s t → Same host path t u → Same host path s u :=
    fun _ _ _ => FileTree.SameAlong.trans
  induction depth with
  | zero => exact fun _ _ _ => within_raise hrefl _
  | succ depth ih =>
    intro place display hplace
    have hbelow : ∀ name, ¬ place ++ [name] <+: journalPlace host path := fun name hpre =>
      hplace ((List.prefix_append _ _).trans hpre)
    unfold removeDirectory
    refine within_bind htrans (within_look hrefl _) fun names =>
      within_bind htrans (within_each hrefl htrans _ fun name _ => ?_) fun _ => ?_
    · refine within_bind htrans (within_look hrefl _) fun found => ?_
      rcases found with _ | ⟨_, _ | _ | _ | _⟩
      · exact within_pure hrefl _
      · exact ih _ _ (hbelow name)
      · exact within_unlinkEntry (hbelow name)
      · exact within_unlinkEntry (hbelow name)
      · exact within_raise hrefl _
    · exact within_bind htrans (within_look hrefl _) fun _ =>
        within_bind htrans (within_require hrefl _ _) fun _ =>
          within_unlinkEntry hplace

/-- The place of an owned path below a home. -/
def ownedPlace (host : Host) (home : Path) (item : OwnedPath) : Option Place :=
  ((Path.ofString item.path).relativeTo home).map fun relative =>
    (resolveSitePrefix host home).names ++ relative

/-- **The condition of a discard**: no owned path on the way to the journal, the journal included,
still has its recorded identity. -/
def Apart (host : Host) (path home : Path) (disk : Disk) (owned : List (String × OwnedPath)) :
    Prop :=
  ∀ named ∈ owned, ∀ place, ownedPlace host home named.2 = some place →
    place <+: journalPlace host path → ∀ entry, disk.find place = some entry →
      proveOwned host named.2 entry (Path.ofString named.2.path) ≠ .ok ()

/-- Of a directory the device and the inode are compared. -/
theorem ownedIdentityMatches_directory {expected : Dict} {stat : Stat} {size : Nat} :
    ownedIdentityMatches expected (identityRecord stat size .directory none none) = true ↔
      expected.get "device" = .num stat.device "" ∧ expected.get "inode" = .num stat.inode "" ∧
        expected.get "file_type" = .str "directory" := by
  unfold ownedIdentityMatches
  simp only [List.all_cons, List.all_nil, Bool.and_true, Bool.and_eq_true, Bool.or_eq_true,
    beq_iff_eq]
  constructor
  · rintro ⟨⟨hdev, hinode, htype⟩, -⟩
    exact ⟨hdev, hinode, htype⟩
  · rintro ⟨hdev, hinode, htype⟩
    exact ⟨⟨hdev, hinode, htype⟩, .inl htype⟩

/-- An identity that matches an entry matches one with the same core. -/
theorem proveOwned_core {entry' : Entry FileContent} {display : Path}
    (hcore : entry'.core = entry.core) (h : proveOwned host item entry' display = .ok ()) :
    proveOwned host item entry display = .ok () := by
  have hkind : entry'.isDirectory = entry.isDirectory := by
    rw [← Entry.core_isDirectory, hcore, Entry.core_isDirectory]
  rcases hdir : entry'.isDirectory with _ | _
  · rw [Entry.core_of_not_directory hdir, Entry.core_of_not_directory (hkind ▸ hdir)] at hcore
    rwa [← hcore]
  · have hbody : ∀ e : Entry FileContent, e.isDirectory = true → e.body = .directory := by
      intro e he
      unfold Entry.isDirectory at he
      split at he
      · assumption
      · cases he
    have hat : ∀ e : Entry FileContent, e.isDirectory = true → ownedIdentityAt host e display =
        .ok (.directory, identityRecord e.stat e.stat.size .directory none none) := by
      intro e he
      rw [ownedIdentityAt, hbody e he]
    have hdev : entry'.stat.device = entry.stat.device := by
      rw [← Entry.core_device, hcore, Entry.core_device]
    have hinode : entry'.stat.inode = entry.stat.inode := by
      rw [← Entry.core_inode, hcore, Entry.core_inode]
    unfold proveOwned at h ⊢
    rcases hident : item.identity with _ | _
    · rw [hident] at h
      cases h
    · simp only [hident, hat entry' hdir, hat entry (hkind ▸ hdir), bind_eq_ok,
        Except.ok.injEq, exists_eq_left', ensure_eq_ok, exists_const,
        ownedIdentityMatches_directory] at h ⊢
      rw [← hdev, ← hinode]
      exact h

theorem proveOwned_same {home : Path} (hapart : Apart host path home disk owned)
    (hnamed : named ∈ owned) (hplace : ownedPlace host home named.2 = some place)
    (hpre : place <+: journalPlace host path) (hsame : Same host path disk disk')
    (hent : disk'.find place = some entry) :
    proveOwned host named.2 entry (Path.ofString named.2.path) ≠ .ok () := by
  have hcore := hsame place hpre
  rw [hent, Option.map_some] at hcore
  obtain ⟨entry₀, hent₀, heq⟩ := Option.map_eq_some_iff.1 hcore.symm
  exact fun hproved => hapart named hnamed place hplace hpre entry₀ hent₀
    (proveOwned_core heq.symm hproved)

/-- The parent of a target is opened below the home directory or found missing. -/
theorem wp_openTargetParentAt {relative : List String}
    {Q : Option Descriptor → Disk → Stream' Chance → Prop}
    (hQ : ∀ found, (∀ opened, found = some opened → opened.place = home.place ++ relative) → Q found disk supply)
    (hE : ∀ error, E error disk supply) :
    wp (openTargetParentAt home relative) C Q E disk supply := by
  unfold openTargetParentAt
  rw [wp_bind, wp_look]
  rcases hwalk : disk.walk home.place relative with error | place
  · rcases error with _ | _
    · exact (wp_pure _).2 (hQ _ fun _ h => (by cases h))
    · exact (wp_raise _).2 (hE _)
  · have hplace := FileTree.walk_place hwalk
    show wp (some <$> openAt place) C Q E disk supply
    rw [wp_map]
    unfold openAt
    rw [wp_bind, wp_look]
    rcases disk.find place with _ | _
    · exact (wp_raise _).2 (hE _)
    · exact (wp_pure _).2 (hQ _ fun opened hopen => by
        cases hopen
        exact hplace)

/-- **One owned path is discarded** off the way to the journal. -/
theorem wp_discardOwnedPath (hhome : home.place = (resolveSitePrefix host homePath).names)
    (hapart : Apart host path homePath disk owned) (hnamed : named ∈ owned)
    (hsame : Same host path disk disk') :
    Leaves (Same host path disk) (discardOwnedPath host home homePath named) disk' supply := by
  unfold discardOwnedPath Leaves
  simp only [wp_bind, wp_ofExcept]
  refine ⟨fun _ _ => ⟨fun relative hrel => ?_, fun _ _ => hsame⟩, fun _ _ => hsame⟩
  refine wp_openTargetParentAt (fun found hfound => ?_) fun _ => hsame
  rcases found with _ | parent
  · exact (wp_pure _).2 hsame
  rcases hlast : relative.getLast? with _ | last
  · exact (wp_pure _).2 hsame
  have hplace : ownedPlace host homePath named.2 = some (parent.place ++ [last]) := by
    have hsplit : relative.dropLast ++ [last] = relative :=
      List.dropLast_append_getLast? last (by rw [hlast]; rfl)
    unfold relativeToHome at hrel
    split at hrel
    · cases hrel
    · rename_i found hrel'
      cases hrel
      rw [ownedPlace, hrel', Option.map_some, hfound parent rfl, hhome, List.append_assoc, hsplit]
  show wp (discardOwnedEntry host named.2 (parent.place ++ [last]) _) _ _ _ _ _
  set place := parent.place ++ [last]
  unfold discardOwnedEntry
  rw [wp_bind, wp_look]
  rcases hent : disk'.find place with _ | _
  · exact (wp_pure _).2 hsame
  refine wp_ofExcept_then (fun _ hproved => ?_) fun _ _ => hsame
  have hoff : ¬ place <+: journalPlace host path := fun hpre =>
    proveOwned_same hapart hnamed hplace hpre hsame hent hproved
  refine wp_cases (fun _ => ?_) fun _ => ?_
  · rw [wp_bind, wp_look]
    exact (within_removeDirectory _ _ _ hoff).wp (fun t ht => hsame.trans ht)
      (fun _ t _ ht => hsame.trans ht) fun _ t _ ht => hsame.trans ht
  · exact (within_unlinkEntry hoff).wp (fun t ht => hsame.trans ht)
      (fun _ t _ ht => hsame.trans ht) fun _ t _ ht => hsame.trans ht

section

variable (h : Holds host path disk value) (hsound : Journal.Sound value)
  (hsize : Json.fileBytes (.obj value) ≤ maxJournalBytes)

include h hsound hsize

/-- **One `discard_full_transaction`** with the owned paths apart from the journal. -/
theorem leaves_discardFullTransaction
    {home : Path} (hapart : ∀ owned, coerceOwnedPaths (value.get "owned_paths") = .ok owned →
      Apart host path home disk owned) :
    Leaves (Evolved host path value) (discardFullTransaction host path home) disk supply := by
  have hkept : Evolved host path value disk := evolved_of_same h hsound same_self
  unfold discardFullTransaction Leaves
  refine wp_ofExcept_then (fun homePath hhomePath => ?_) fun _ _ => hkept
  have hhome : homePath = home := by
    unfold normalizedAbsolute at hhomePath
    split at hhomePath
    · exact (Except.ok.inj hhomePath).symm
    · cases hhomePath
  subst hhome
  refine leaves_editJournal h hsound hsize fun parent _ => ?_
  refine wp_ofExcept_then (fun owned hown => ?_) fun _ _ => same_self
  have happly := hapart owned (discardableOwnedPaths_eq_ok hown).2.2
  unfold openHome
  simp only [wp_bind]
  refine wp_openAbsoluteDirectory (fun opened entry _ _ _ hopen => ?_) fun _ => same_self
  have hplace : opened.place = (resolveSitePrefix host homePath).names := by rw [hopen]
  refine (ReadOnlyCalls.requireCurrentOwner _ _).wp (fun _ w => ?_) fun _ _ => same_self
  refine (ReadOnlyCalls.verifyJournalParentFromHome _ _ _ _).wp (fun _ w => ?_) fun _ _ => same_self
  rw [wp_pure]
  refine wp_each (fun items t _ => Same host path disk t ∧ ∀ named ∈ items, named ∈ owned)
    _ (fun named items t w hitems => ?_) (fun t w hitems => ?_) _ _ _ ⟨same_self, fun named hnamed =>
      (List.perm_insertionSort _ owned).mem_iff.1 hnamed⟩
  · obtain ⟨hsame, hmem⟩ := hitems
    refine wp_imp (wp_discardOwnedPath hplace happly (hmem named List.mem_cons_self) hsame)
      fun _ u _ hu => ?_
    exact ⟨hu, fun other hother => hmem other (List.mem_cons_of_mem _ hother)⟩
  · refine (ReadOnlyCalls.verifyJournalParentFromHome _ _ _ _).wp (fun _ w => ?_)
      fun _ _ => hitems.1
    rw [wp_chance, wp_ofExcept]
    exact ⟨fun edited hedited => ⟨hitems.1, recoveredValue_edits hsound hown hedited⟩,
      fun _ _ => hitems.1⟩

/-- **A discard of a journal that may not be discarded** is refused with nothing removed. -/
theorem discard_refused (home : Path) (href : ∀ owned, discardableOwnedPaths value ≠ .ok owned) :
    wp (discardFullTransaction host path home) (fun _ => False) (fun _ _ _ => False)
      (fun _ t _ => t = disk) disk supply := by
  obtain ⟨_, hent, -⟩ := h.parent
  unfold discardFullTransaction editJournal
  refine wp_ofExcept_then (fun homePath _ => h.wp_withJournalParent hent ?_) fun _ _ => rfl
  rw [wp_finish, wp_bind]
  refine wp_loadJournalAt rfl h hsound hsize fun identity => ?_
  rw [wp_bind]
  exact wp_ofExcept_then (fun owned hown => absurd hown (href owned))
    fun _ _ => h.wp_verifyParent hent rfl

/-- **Loading** a journal on disk. -/
theorem wp_loadJournal :
    wp (loadJournal host path) (fun _ => False) (fun loaded t _ => loaded = value ∧ t = disk)
      (fun _ _ _ => False) disk supply := by
  obtain ⟨_, hent, -⟩ := h.parent
  unfold loadJournal
  refine h.wp_withJournalParent hent ?_
  rw [wp_finish, wp_bind]
  refine wp_loadJournalAt rfl h hsound hsize fun identity => ?_
  rw [wp_pure]
  exact h.wp_verifyParent hent ⟨rfl, rfl⟩

end

end

end ClioQueue.Bootstrap
