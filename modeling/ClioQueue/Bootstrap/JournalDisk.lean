/-
# The journal a disk holds

`Holds host path disk value`: the directory of the journal can be opened and is private, and the
journal file is a private one with the document `value`.  A step off the way to the journal keeps
it (`Holds.of_same`), so the calls are read through two rules: what only looks at the disk
changes nothing, and `atomicJsonAt` leaves the old document until it holds the new one
(`wp_atomicJsonAt`).
-/

import ClioQueue.Bootstrap.JournalEdits

namespace ClioQueue.Bootstrap

open Durable Durable.Prog

/-! ### Calls that only look -/

namespace ReadOnlyCalls

open Prog

variable {host : Host}

theorem demand (condition : Bool) (message : String) : ReadOnly (demand condition message) :=
  .require _ _

theorem openAt (place : Place) : ReadOnly (openAt place) := by
  refine (ReadOnly.look _).bind fun found => ?_
  rcases found with _ | _
  · exact .raise _
  · exact .pure _

theorem openAbsoluteDirectory (path : Path) : ReadOnly (openAbsoluteDirectory host path) :=
  (ReadOnly.ofExcept _).bind fun _ => (ReadOnly.look _).bind fun _ =>
    (ReadOnly.ofExcept _).bind fun _ => openAt _

theorem verifyParent (parent : Path) (descriptor : Descriptor) :
    ReadOnly (verifyParent host parent descriptor) :=
  (ReadOnly.mapError _ (openAbsoluteDirectory parent)).bind fun _ =>
    (ReadOnly.look _).bind fun _ => .require _ _

theorem openTargetParentAt (home : Descriptor) (relative : List String) :
    ReadOnly (openTargetParentAt home relative) := by
  refine (ReadOnly.look _).bind fun found => ?_
  rcases found with (_ | _) | place
  · exact .pure _
  · exact .raise _
  · exact (openAt place).bind fun _ => .pure _

theorem verifyJournalParentFromHome (home : Descriptor) (homePath : Path) (journal : Descriptor)
    (journalParent : Path) :
    ReadOnly (verifyJournalParentFromHome home homePath journal journalParent) := by
  unfold Bootstrap.verifyJournalParentFromHome
  split
  · exact .raise _
  · refine (openTargetParentAt _ _).bind fun found => ?_
    rcases found with _ | _
    · exact .raise _
    · exact demand _ _

theorem requireCurrentOwner (home : Descriptor) (description : String) :
    ReadOnly (requireCurrentOwner host home description) :=
  (ReadOnly.look _).bind fun _ => demand _ _

theorem openHome (homePath : Path) (description : String) (journal : Descriptor)
    (journalParent : Path) : ReadOnly (openHome host homePath description journal journalParent) :=
  (openAbsoluteDirectory _).bind fun _ => (requireCurrentOwner _ _).bind fun _ =>
    (verifyJournalParentFromHome _ _ _ _).bind fun _ => .pure _

end ReadOnlyCalls

/-! ### The journal of a disk -/

/-- The place of the journal's directory. -/
def parentPlace (host : Host) (path : Path) : Place := (resolveSitePrefix host path.parent).names

/-- The place of the journal. -/
def journalPlace (host : Host) (path : Path) : Place := parentPlace host path ++ [path.name]

/-- The directory of the journal can be opened and is private. -/
structure Ready (host : Host) (path : Path) (disk : Disk) : Prop where
  normalized : path.isNormalized = true
  name : (path.name ≠ "" && path.name ≠ "." && path.name ≠ "..") = true
  parentNormalized : path.parent.isNormalized = true
  walk : disk.walk [] (parentPlace host path) = .ok (parentPlace host path)
  parent : ∃ entry, disk.find (parentPlace host path) = some entry ∧
    isPrivateDirectory host (some entry) = true

/-- **The disk holds a journal**: a private file with the document. -/
structure Holds (host : Host) (path : Path) (disk : Disk) (value : Dict) : Prop extends
    Ready host path disk where
  entry : ∃ entry, disk.find (journalPlace host path) = some entry ∧
    requirePrivateRegular host entry = .ok (.document (.obj value))

section

variable {host : Host} {path : Path} {disk disk' : Disk} {value : Dict}

theorem parentPlace_above (host : Host) (path : Path) :
    parentPlace host path <+: journalPlace host path := List.prefix_append _ _

theorem isPrivateDirectory_core {entry entry' : Entry FileContent} (h : entry'.core = entry.core) :
    isPrivateDirectory host (some entry') = isPrivateDirectory host (some entry) := by
  unfold isPrivateDirectory
  rw [Option.any_some, Option.any_some, ← Entry.core_isDirectory entry', h, Entry.core_isDirectory,
    ← Entry.core_uid entry', h, Entry.core_uid, ← Entry.core_mode entry', h, Entry.core_mode]

theorem Ready.of_same (h : Ready host path disk)
    (hsame : FileTree.SameAlong (parentPlace host path) disk disk') : Ready host path disk' := by
  obtain ⟨_, hent, hpriv⟩ := h.parent
  have hcore := hsame _ (List.prefix_refl _)
  rw [hent, Option.map_some] at hcore
  obtain ⟨entry', hent', heq⟩ := Option.map_eq_some_iff.1 hcore
  refine ⟨h.normalized, h.name, h.parentNormalized, ?_, entry', hent', ?_⟩
  · exact (FileTree.walk_of_sameAlong hsame (parentPlace host path) [] (List.prefix_refl _)).trans
      h.walk
  · rw [isPrivateDirectory_core heq, hpriv]

theorem not_directory_of_private {entry : Entry FileContent} {content : FileContent}
    (h : requirePrivateRegular host entry = .ok content) :
    entry.isDirectory = false ∧ entry.body = .file content := by
  unfold requirePrivateRegular at h
  split at h
  · rename_i _ hbody
    split at h
    · cases h
      exact ⟨by rw [Entry.isDirectory, hbody], hbody⟩
    · cases h
  · cases h

/-- **A disk that is the same on the way to the journal** holds the same document. -/
theorem Holds.of_same (h : Holds host path disk value)
    (hsame : FileTree.SameAlong (journalPlace host path) disk disk') :
    Holds host path disk' value := by
  obtain ⟨entry, hent, hpriv⟩ := h.entry
  have hkind := (not_directory_of_private hpriv).1
  have hcore := hsame _ (List.prefix_refl _)
  rw [hent, Option.map_some, Entry.core_of_not_directory hkind] at hcore
  obtain ⟨entry', hent', heq⟩ := Option.map_eq_some_iff.1 hcore
  have hkind' : entry'.isDirectory = false := by
    rw [← Entry.core_isDirectory, heq, hkind]
  rw [Entry.core_of_not_directory hkind'] at heq
  refine ⟨h.toReady.of_same (hsame.mono (parentPlace_above host path)), entry', hent', ?_⟩
  rw [heq, hpriv]

/-- Nothing stands at a place off the way to the journal only. -/
theorem off_of_absent (h : Holds host path disk value) {directory : Place} {name : String}
    (habsent : disk.find (directory ++ [name]) = none) :
    ¬ directory ++ [name] <+: journalPlace host path := by
  intro hpre
  have hlen := hpre.length_le
  unfold journalPlace at hpre hlen
  rw [List.length_append, List.length_append, List.length_singleton, List.length_singleton] at hlen
  by_cases hlast : directory.length = (parentPlace host path).length
  · obtain ⟨entry, hent, -⟩ := h.entry
    have heq : directory ++ [name] = parentPlace host path ++ [path.name] :=
      hpre.eq_of_length (by simp [hlast])
    rw [heq] at habsent
    rw [journalPlace, habsent] at hent
    cases hent
  · have hlt : directory.length < (parentPlace host path).length := by omega
    obtain ⟨entry, hent, -⟩ := FileTree.find_of_walk h.walk hlt
    have heq : directory ++ [name] = (parentPlace host path).take (directory.length + 1) := by
      have htake := List.prefix_iff_eq_take.1 hpre
      rw [List.length_append, List.length_singleton,
        List.take_append_of_le_length (by omega)] at htake
      exact htake
    rw [List.nil_append, ← heq, habsent] at hent
    cases hent

/-! ### Opening and loading -/

variable {α : Type} {supply : Stream' Chance}
  {parent : Descriptor} {Q : Descriptor → Disk → Stream' Chance → Prop}
  {body : Descriptor → JournalProg α} {C : Disk → Prop} {entry : Entry FileContent}
  {E : JournalError → Disk → Stream' Chance → Prop} {expected : Option FileIdentity}

/-- An absolute directory is opened if its path is normalized and has no link on the way; the
descriptor is that of the entry found there. -/
theorem wp_openAbsoluteDirectory {directory : Path}
    (hQ : ∀ opened entry, directory.isNormalized = true → disk.walk [] (resolveSitePrefix host directory).names = .ok (resolveSitePrefix host directory).names → disk.find (resolveSitePrefix host directory).names = some entry → opened = ⟨(resolveSitePrefix host directory).names, entry.stat.device, entry.stat.inode⟩ → Q opened disk supply)
    (hE : ∀ error, E error disk supply) :
    wp (openAbsoluteDirectory host directory) C Q E disk supply := by
  unfold openAbsoluteDirectory
  simp only [wp_bind, wp_ofExcept, wp_look]
  refine ⟨fun normalized hnorm => ⟨fun place hplace => ?_, fun _ _ => hE _⟩, fun _ _ => hE _⟩
  unfold normalizedAbsolute at hnorm
  split at hnorm
  · rename_i hpath
    cases hnorm
    rcases hwalk : disk.walk [] (resolveSitePrefix host directory).names with error | _
    · rw [hwalk] at hplace
      cases hplace
    · rw [hwalk] at hplace
      cases hplace
      have hfound := FileTree.walk_place hwalk
      rw [List.nil_append] at hfound
      subst hfound
      unfold openAt
      rw [wp_bind, wp_look]
      rcases hent : disk.find (resolveSitePrefix host directory).names with _ | entry
      · exact (wp_raise _).2 (hE _)
      · exact (wp_pure _).2 (hQ _ entry hpath hwalk hent rfl)
  · cases hnorm

section

variable (h : Ready host path disk) (hent : disk.find (parentPlace host path) = some entry)

include h hent

/-- The journal's directory can be opened. -/
theorem Ready.wp_open
    (hQ : Q ⟨parentPlace host path, entry.stat.device, entry.stat.inode⟩ disk supply) :
    wp (openAbsoluteDirectory host path.parent) C Q E disk supply := by
  have hnorm : normalizedAbsolute path.parent "bootstrap directory" = .ok path.parent := by
    rw [normalizedAbsolute, if_pos h.parentNormalized]
  have hwalk := h.walk
  unfold parentPlace at hwalk hent hQ
  unfold openAbsoluteDirectory
  rw [hnorm]
  refine wp_ofExcept_then (fun normalized hpath => ?_) fun error herr => (by cases herr)
  cases hpath
  rw [wp_bind, wp_look, hwalk]
  refine wp_ofExcept_then (fun place hplace => ?_) fun error herr => (by cases herr)
  cases hplace
  unfold openAt
  rw [wp_bind, wp_look, hent]
  exact (wp_pure _).2 hQ

/-- The body of a call runs with the journal's directory opened. -/
theorem Ready.wp_withJournalParent {Q : α → Disk → Stream' Chance → Prop}
    (hbody : wp (.finish (body ⟨parentPlace host path, entry.stat.device, entry.stat.inode⟩) (verifyParent host path.parent ⟨parentPlace host path, entry.stat.device, entry.stat.inode⟩)) C Q (fun error => E (parentMissing error)) disk supply) :
    wp (withJournalParent host path (openAbsoluteDirectory host) body) C Q E disk supply := by
  have hnorm : normalizedAbsolute path "bootstrap transaction journal" = .ok path := by
    rw [normalizedAbsolute, if_pos h.normalized]
  have hpriv : isPrivateDirectory host (some entry) = true := by
    obtain ⟨_, hent', hpriv⟩ := h.parent
    rw [hent] at hent'
    cases hent'
    exact hpriv
  unfold withJournalParent demand
  rw [hnorm]
  refine wp_ofExcept_then (fun normalized hpath => ?_) fun _ herr => (by cases herr)
  cases hpath
  rw [wp_bind, wp_require, h.name]
  refine ⟨fun _ => ?_, fun hfalse => (by cases hfalse)⟩
  rw [wp_mapError, wp_bind]
  refine h.wp_open hent ?_
  rw [wp_bind, wp_look, hent, hpriv]
  exact wp_require_then (fun _ => hbody) fun hfalse => (by cases hfalse)

/-- The path still leads to the directory. -/
theorem Ready.wp_verifyParent {Q : Unit → Disk → Stream' Chance → Prop} (hQ : Q () disk supply) :
    wp (verifyParent host path.parent
      ⟨parentPlace host path, entry.stat.device, entry.stat.inode⟩) C Q E disk supply := by
  have hdir : entry.isDirectory = true := by
    obtain ⟨_, hent', hpriv⟩ := h.parent
    rw [hent] at hent'
    cases hent'
    rw [isPrivateDirectory, Option.any_some, Bool.and_eq_true, Bool.and_eq_true] at hpriv
    exact hpriv.1.1
  have hsame : Descriptor.isAt ⟨parentPlace host path, entry.stat.device, entry.stat.inode⟩
      (parentPlace host path) disk = true := by
    simp only [Descriptor.isAt, hent, hdir, beq_self_eq_true, Bool.and_self]
  unfold verifyParent
  rw [wp_bind, wp_mapError]
  refine h.wp_open hent ?_
  rw [wp_bind, wp_look, hsame, wp_require]
  exact ⟨fun _ => hQ, fun hfalse => (by cases hfalse)⟩

end

/-- **Around the body of a call** the disk is only looked at. -/
theorem leaves_withJournalParent {I : Disk → Prop} (hI : I disk)
    (hbody : ∀ parent, parent.place = parentPlace host path → Ready host path disk → Leaves I (body parent) disk supply) :
    Leaves I (withJournalParent host path (openAbsoluteDirectory host) body) disk supply := by
  unfold withJournalParent Leaves
  simp only [wp_bind, wp_ofExcept, demand, wp_require, wp_mapError]
  refine ⟨fun normalized hnorm => ⟨fun hname => ?_, fun _ => hI⟩, fun _ _ => hI⟩
  unfold normalizedAbsolute at hnorm
  split at hnorm
  · rename_i hpath
    cases hnorm
    refine wp_openAbsoluteDirectory (fun opened entry hpar hwalk hent hopen => ?_) fun _ => hI
    subst hopen
    rw [wp_look, hent]
    refine ⟨fun hpriv => ?_, fun _ => hI⟩
    have hready : Ready host path disk := ⟨hpath, hname, hpar, hwalk, entry, hent, hpriv⟩
    rw [wp_finish]
    have hlast : ∀ t w, I t → Leaves I (verifyParent host path.parent
        ⟨(resolveSitePrefix host path.parent).names, entry.stat.device, entry.stat.inode⟩) t w :=
      fun t w ht => (ReadOnlyCalls.verifyParent _ _).wp (fun _ _ => ht) fun _ _ => ht
    exact wp_mono (hbody _ rfl hready) (fun _ h => h) (fun _ t w ht => hlast t w ht)
      fun _ t w ht => hlast t w ht
  · cases hnorm

/-- A sound journal of bounded size that the disk holds is loaded back as it is. -/
theorem Holds.loadEntry (h : Holds host path disk value) (hsound : Journal.Sound value)
    (hsize : Json.fileBytes (.obj value) ≤ maxJournalBytes) :
    ∃ identity, Bootstrap.loadEntry host (disk.find (journalPlace host path)) =
      .ok (value, identity) := by
  obtain ⟨entry, hent, hpriv⟩ := h.entry
  have hbody := (not_directory_of_private hpriv).2
  have hread : readRegular host (some entry) =
      .ok (.document (.obj value), entry.stat.device, entry.stat.inode) := by
    have hbd : ensure (1 ≤ FileContent.size (.document (.obj value)) &&
        FileContent.size (.document (.obj value)) ≤ maxJournalBytes)
        "bootstrap transaction journal size is invalid" = .ok () := by
      rw [ensure_eq_ok, Bool.and_eq_true, decide_eq_true_eq, decide_eq_true_eq]
      exact ⟨Nat.succ_le_succ (Nat.zero_le _), hsize⟩
    obtain ⟨stat, _⟩ := entry
    cases hbody
    show (requirePrivateRegular host ⟨stat, .file (.document (.obj value))⟩ >>= fun content => _) = _
    rw [hpriv]
    show (ensure _ _ >>= fun _ => _) = _
    rw [hbd]
    rfl
  refine ⟨(entry.stat.device, entry.stat.inode), ?_⟩
  unfold Bootstrap.loadEntry
  rw [hent, hread]
  show (loadValue (.obj value) >>= fun journal => _) = _
  have hload : loadValue (.obj value) = .ok value := by
    have hval := validateJournal_ok_iff (u := ()).2 hsound.valid
    show (validateJournal value >>= fun _ => pure value) = _
    rw [hval]
    rfl
  rw [hload]
  rfl

/-- **Loading** the journal a disk holds. -/
theorem wp_loadJournalAt {Q : Dict × FileIdentity → Disk → Stream' Chance → Prop}
    (hpar : parent.place = parentPlace host path) (h : Holds host path disk value)
    (hsound : Journal.Sound value) (hsize : Json.fileBytes (.obj value) ≤ maxJournalBytes)
    (hQ : ∀ identity, Q (value, identity) disk supply) :
    wp (loadJournalAt host parent path.name) C Q E disk supply := by
  obtain ⟨identity, hload⟩ := h.loadEntry hsound hsize
  unfold loadJournalAt
  rw [wp_bind, wp_look, wp_ofExcept, hpar]
  refine ⟨fun loaded hloaded => ?_, fun error herr => ?_⟩
  · rw [← journalPlace, hload] at hloaded
    cases hloaded
    exact hQ identity
  · rw [← journalPlace, hload] at herr
    cases herr

/-! ### Writing -/

@[simp]
theorem wp_chance {Q : Chance → Disk → Stream' Chance → Prop} :
    wp chance C Q E disk supply ↔ Q supply.head disk supply.tail := wp_draw _

theorem temporaryName_ne (name random : String) : temporaryName name random ≠ name := by
  intro h
  have hlen := congrArg String.length h
  simp only [temporaryName, String.length_append] at hlen
  have hdot : ".".length = 1 := rfl
  omega

/-- The temporary file is off the way to the journal. -/
theorem staged_off (host : Host) (path : Path) (random : String) :
    ¬ parentPlace host path ++ [temporaryName path.name random] <+: journalPlace host path := by
  intro hpre
  have heq := hpre.eq_of_length (by simp [journalPlace])
  unfold journalPlace at heq
  rw [List.append_cancel_left_eq, List.cons.injEq] at heq
  exact temporaryName_ne _ _ heq.1

/-- The rename of a staged private file. -/
theorem holds_rename (h : Ready host path disk) {staged : Place} {stat : Stat}
    (hstaged : disk.find staged = some ⟨stat, .file (.document (.obj value))⟩)
    (hstat : stat.links = 1 ∧ stat.uid = host.uid ∧ stat.mode = 0o600)
    (hpre : ¬ staged <+: parentPlace host path) (changedNs : Int) (stamp : FileTree.Stamp) :
    Holds host path (disk.rename staged (journalPlace host path) changedNs stamp) value := by
  obtain ⟨hlinks, huid, hmode⟩ := hstat
  have hj : ¬ journalPlace host path <+: parentPlace host path := by
    intro hle
    have hlen := hle.length_le
    rw [journalPlace, List.length_append, List.length_singleton] at hlen
    omega
  unfold FileTree.rename
  rw [hstaged]
  have hput : ((disk.erase staged).put (journalPlace host path)
      ⟨{ stat with changedNs }, .file (.document (.obj value))⟩).find (journalPlace host path) =
        some ⟨{ stat with changedNs }, .file (.document (.obj value))⟩ := by
    rw [FileTree.find_put, if_pos rfl]
  refine ⟨h.of_same ?_, _, FileTree.find_touch_of_not_directory hput rfl, ?_⟩
  · exact ((FileTree.sameAlong_erase hpre).trans (FileTree.sameAlong_put hj _)).trans
      (FileTree.sameAlong_touch _ _ _ _)
  · unfold requirePrivateRegular
    simp only [hlinks, huid, hmode, beq_self_eq_true, Bool.true_and]
    rfl

/-- The names of the temporary file and of the journal are not the same place. -/
theorem sameAlong_unlinkIfPresent {place : Place} (h : ¬ place <+: journalPlace host path) :
    Within (FileTree.SameAlong (journalPlace host path)) (unlinkIfPresent place) := by
  intro disk _
  unfold unlinkIfPresent
  simp only [wp_bind, wp_look, wp_chance]
  refine wp_cases (fun _ => ?_) fun _ => ?_
  · rw [wp_durably]
    exact ⟨FileTree.sameAlong_unlink h _, FileTree.sameAlong_unlink h _⟩
  · exact (wp_pure _).2 (FileTree.SameAlong.refl _ _)

/-- The staging and the replacement: unchanged on the way until the disk holds the document. -/
theorem wp_replaceJournal {temporary : String} (hpar : parent.place = parentPlace host path)
    (h : Ready host path disk)
    (hstaged : ¬ parentPlace host path ++ [temporary] <+: journalPlace host path) :
    wp (replaceJournal host parent path.name temporary (.document (.obj value)) expected)
      (fun t => FileTree.SameAlong (journalPlace host path) disk t ∨ Holds host path t value)
      (fun _ t _ => Holds host path t value)
      (fun _ t _ => FileTree.SameAlong (journalPlace host path) disk t ∨ Holds host path t value)
      disk supply := by
  have hpre : ¬ parentPlace host path ++ [temporary] <+: parentPlace host path := by
    intro hle
    have hlen := hle.length_le
    rw [List.length_append, List.length_singleton] at hlen
    omega
  unfold replaceJournal
  rw [hpar, ← journalPlace]
  set staged := parentPlace host path ++ [temporary]
  simp only [demand, wp_bind, wp_look, wp_require, wp_chance, wp_durably, wp_ofExcept]
  refine ⟨fun _ => ?_, fun _ => .inl (FileTree.SameAlong.refl _ _)⟩
  -- The empty temporary file, and then its content.
  set empty : Entry FileContent := ⟨⟨supply.head.device, supply.head.inode, supply.head.changedNs, 0,
    host.uid, 0o600, 1⟩, .file (.bytes [])⟩
  set created := disk.create staged empty supply.head.directory with hcreate
  have hfind : created.find staged = some empty := by
    rw [hcreate, FileTree.create]
    exact FileTree.find_touch_of_not_directory (by rw [FileTree.find_put, if_pos rfl]) rfl
  have hsame : FileTree.SameAlong (journalPlace host path) disk created :=
    FileTree.sameAlong_create hstaged _ _
  refine ⟨.inl hsame, ?_⟩
  set written := created.write staged (.document (.obj value)) supply.tail.head.changedNs with hw
  have hfind' : written.find staged = some ⟨{ empty.stat with
      changedNs := supply.tail.head.changedNs }, .file (.document (.obj value))⟩ := by
    rw [hw, FileTree.write, hfind]
    show FileTree.find (FileTree.put _ _ _) _ = _
    rw [FileTree.find_put, if_pos rfl]
  have hsame' : FileTree.SameAlong (journalPlace host path) disk written :=
    hsame.trans (FileTree.sameAlong_write hstaged _ _)
  refine ⟨.inl hsame', fun _ _ => ⟨fun _ => ?_, fun _ => .inl hsame'⟩, fun _ _ => .inl hsame'⟩
  -- From the rename on the disk holds the new document.
  have hready : Ready host path written :=
    h.of_same (hsame'.mono (parentPlace_above host path))
  have hnew := holds_rename hready hfind' ⟨rfl, rfl, rfl⟩ hpre
    supply.tail.tail.head.changedNs supply.tail.tail.head.directory
  exact ⟨.inr hnew, fun _ _ => ⟨fun _ => hnew, fun _ => .inr hnew⟩, fun _ _ => .inr hnew⟩

/-- **The journal is replaced as a whole**: the way to it is unchanged until the disk holds the
new document, with sorted keys. -/
theorem wp_atomicJsonAt {edited : Dict} (hpar : parent.place = parentPlace host path)
    (h : Ready host path disk) :
    wp (atomicJsonAt host parent path.name edited expected)
      (fun t => FileTree.SameAlong (journalPlace host path) disk t ∨
        Holds host path t (Json.sortFields edited))
      (fun _ t _ => Holds host path t (Json.sortFields edited))
      (fun _ t _ => FileTree.SameAlong (journalPlace host path) disk t ∨
        Holds host path t (Json.sortFields edited)) disk supply := by
  have hstaged := staged_off host path supply.head.text
  have hlast := fun t w => sameAlong_unlinkIfPresent hstaged t w
  unfold atomicJsonAt
  rw [wp_bind, wp_chance, wp_finish, Json.sortKeys]
  refine wp_mono (wp_replaceJournal hpar h hstaged) (fun _ h => h) (fun _ t w ht => ?_)
    fun _ t w ht => ?_
  · rw [hpar]
    exact wp_mono (hlast t w) (fun u hu => .inr (ht.of_same hu)) (fun _ u _ hu => ht.of_same hu)
      fun _ u _ hu => .inr (ht.of_same hu)
  · have hkept : ∀ u, FileTree.SameAlong (journalPlace host path) t u →
        FileTree.SameAlong (journalPlace host path) disk u ∨
          Holds host path u (Json.sortFields edited) := fun u hu =>
      ht.imp (fun ht => ht.trans hu) fun ht => ht.of_same hu
    rw [hpar]
    exact wp_mono (hlast t w) hkept (fun _ u _ hu => hkept u hu) fun _ u _ hu => hkept u hu

end

end ClioQueue.Bootstrap
