/-
# A tree of files

The part of a POSIX file system that a program sees that opens every directory by its name
without following links: entries under their places, what `lstat` reports of them, and the
single steps that change the tree.  A place is the list of names from the root, so a descriptor
of a directory is the place at which it was opened.

The kernel chooses device and inode numbers and the times of change; a step takes them as
arguments.  `SameAlong place` is the frame of a step: the entries on the way to `place` are the
same, up to the time and the size of directories, which change whenever a name comes or goes.
-/

import Mathlib.Data.List.Infix
import Mathlib.Tactic.Common

namespace Durable

/-- A place in the tree: the names from the root. -/
abbrev Place : Type := List String

/-- What `lstat` reports besides the type; the size of a file is that of its content. -/
structure Stat where
  device : Nat
  inode : Nat
  changedNs : Int
  size : Nat
  uid : Nat
  mode : Nat
  links : Nat
  deriving DecidableEq

/-- What stands at a place, with file contents of type `χ`. -/
inductive Body (χ : Type) where
  | directory
  | file (content : χ)
  | symlink (target : String)
  | other
  deriving DecidableEq

/-- An entry of the tree. -/
structure Entry (χ : Type) where
  stat : Stat
  body : Body χ
  deriving DecidableEq

namespace Entry

variable {χ : Type}

/-- `S_ISDIR`. -/
def isDirectory (entry : Entry χ) : Bool :=
  match entry.body with
  | .directory => true
  | _ => false

/-- The entry without what changes in a directory whenever a name comes or goes. -/
def core (entry : Entry χ) : Entry χ :=
  if entry.isDirectory then { entry with stat := { entry.stat with changedNs := 0, size := 0 } }
  else entry

@[simp]
theorem core_device (entry : Entry χ) : entry.core.stat.device = entry.stat.device := by
  unfold core
  split <;> rfl

@[simp]
theorem core_inode (entry : Entry χ) : entry.core.stat.inode = entry.stat.inode := by
  unfold core
  split <;> rfl

@[simp]
theorem core_uid (entry : Entry χ) : entry.core.stat.uid = entry.stat.uid := by
  unfold core
  split <;> rfl

@[simp]
theorem core_mode (entry : Entry χ) : entry.core.stat.mode = entry.stat.mode := by
  unfold core
  split <;> rfl

@[simp]
theorem core_isDirectory (entry : Entry χ) : entry.core.isDirectory = entry.isDirectory := by
  unfold core
  split <;> rfl

theorem core_of_not_directory {entry : Entry χ} (h : entry.isDirectory = false) :
    entry.core = entry := by
  rw [core, h]
  rfl

end Entry

/-- The entries, each under its place. -/
abbrev FileTree (χ : Type) : Type := List (Place × Entry χ)

/-- Why a directory cannot be opened name by name. -/
inductive WalkError where
  | missing
  | notDirectory
  deriving DecidableEq

namespace FileTree

variable {χ : Type}

/-- The entry at a place. -/
def find (tree : FileTree χ) (place : Place) : Option (Entry χ) := tree.lookup place

/-- The names in a directory. -/
def names (tree : FileTree χ) (place : Place) : List String :=
  tree.filterMap fun e => if e.1.dropLast = place then e.1.getLast? else none

/-- Open a directory name by name, without following links. -/
def walk (tree : FileTree χ) : (opened : Place) → (names : List String) → Except WalkError Place
  | opened, [] => .ok opened
  | opened, name :: names =>
    match tree.find (opened ++ [name]) with
    | none => .error .missing
    | some entry =>
      if entry.isDirectory then tree.walk (opened ++ [name]) names else .error .notDirectory

/-! ### The steps -/

/-- Put an entry at a place. -/
def put (tree : FileTree χ) (place : Place) (entry : Entry χ) : FileTree χ :=
  (place, entry) :: tree.filter fun e => e.1 ≠ place

/-- Take away the entry at a place. -/
def erase (tree : FileTree χ) (place : Place) : FileTree χ := tree.filter fun e => e.1 ≠ place

/-- The time and the size a directory gets when a name in it comes or goes. -/
structure Stamp where
  changedNs : Int
  size : Nat

/-- A name has come or gone in a directory. -/
def touch (tree : FileTree χ) (directory : Place) (stamp : Stamp) : FileTree χ :=
  match tree.find directory with
  | none => tree
  | some entry =>
    if entry.isDirectory then
      tree.put directory
        { entry with stat := { entry.stat with changedNs := stamp.changedNs, size := stamp.size } }
    else tree

/-- A new entry in its directory. -/
def create (tree : FileTree χ) (place : Place) (entry : Entry χ) (stamp : Stamp) : FileTree χ :=
  (tree.put place entry).touch place.dropLast stamp

/-- An entry is removed from its directory. -/
def unlink (tree : FileTree χ) (place : Place) (stamp : Stamp) : FileTree χ :=
  (tree.erase place).touch place.dropLast stamp

/-- A file gets a content. -/
def write (tree : FileTree χ) (place : Place) (content : χ) (changedNs : Int) : FileTree χ :=
  match tree.find place with
  | none => tree
  | some entry => tree.put place ⟨{ entry.stat with changedNs }, .file content⟩

/-- An entry takes the place of another name in its directory. -/
def rename (tree : FileTree χ) (source target : Place) (changedNs : Int) (stamp : Stamp) :
    FileTree χ :=
  match tree.find source with
  | none => tree
  | some entry =>
    ((tree.erase source).put target { entry with stat := { entry.stat with changedNs } }).touch
      target.dropLast stamp

/-! ### What the steps leave at a place -/

section

variable {tree : FileTree χ} {place other : Place} {entry : Entry χ}

/-- Erasing a place changes that place only. -/
theorem find_erase (tree : FileTree χ) (place other : Place) :
    (tree.erase place).find other = if other = place then none else tree.find other := by
  induction tree with
  | nil => simp [erase, find]
  | cons e tree ih =>
    unfold erase find at ih ⊢
    rw [List.filter_cons]
    by_cases he : e.1 = place
    · have hdrop : decide (e.1 ≠ place) = false := by simpa using he
      rw [hdrop, if_neg Bool.false_ne_true, ih, List.lookup_cons]
      by_cases hother : other = place
      · rw [if_pos hother, if_pos hother]
      · have hne : (other == e.1) = false := by
          rw [he]
          exact beq_eq_false_iff_ne.2 hother
        rw [if_neg hother, if_neg hother, hne]
    · have hkeep : decide (e.1 ≠ place) = true := decide_eq_true he
      rw [hkeep, if_pos rfl, List.lookup_cons, List.lookup_cons, ih]
      by_cases hother : other = place
      · have hne : (other == e.1) = false := by
          rw [hother]
          exact beq_eq_false_iff_ne.2 (Ne.symm he)
        rw [if_pos hother, if_pos hother, hne]
      · rw [if_neg hother, if_neg hother]

theorem find_put (tree : FileTree χ) (place other : Place) (entry : Entry χ) :
    (tree.put place entry).find other = if other = place then some entry else tree.find other := by
  have herase := find_erase tree place other
  unfold erase at herase
  unfold put find at *
  rw [List.lookup_cons]
  by_cases hother : other = place
  · rw [if_pos hother, beq_iff_eq.2 hother]
  · rw [if_neg hother] at herase ⊢
    rw [beq_eq_false_iff_ne.2 hother]
    exact herase

/-- What a change of time and size leaves at a place. -/
theorem core_find_touch (tree : FileTree χ) (directory : Place) (stamp : Stamp) (other : Place) :
    ((tree.touch directory stamp).find other).map Entry.core =
      (tree.find other).map Entry.core := by
  unfold touch
  split
  · rfl
  · rename_i entry hent
    split
    · rename_i hdir
      rw [find_put]
      split
      · rename_i hother
        rw [hother, hent, Option.map_some, Option.map_some]
        unfold Entry.core
        rw [show Entry.isDirectory { entry with stat :=
          { entry.stat with changedNs := stamp.changedNs, size := stamp.size } } = true from
          hdir, hdir]
        rfl
      · rfl
    · rfl

/-- A change of time and size leaves what is no directory. -/
theorem find_touch_of_not_directory {directory : Place} {stamp : Stamp}
    (h : tree.find other = some entry) (hent : entry.isDirectory = false) :
    (tree.touch directory stamp).find other = some entry := by
  have hcore := core_find_touch tree directory stamp other
  rw [h, Option.map_some, Entry.core_of_not_directory hent] at hcore
  obtain ⟨found, hfound, heq⟩ := Option.map_eq_some_iff.1 hcore
  have hkind : found.isDirectory = false := by
    rw [← Entry.core_isDirectory, heq, hent]
  rw [hfound, ← heq, Entry.core_of_not_directory hkind]

end

/-! ### The way to a place -/

/-- Both trees have the same entries on the way to a place, and at it. -/
def SameAlong (place : Place) (tree tree' : FileTree χ) : Prop :=
  ∀ other, other <+: place → (tree'.find other).map Entry.core = (tree.find other).map Entry.core

section

variable {tree tree' tree'' : FileTree χ} {place other : Place}

theorem SameAlong.refl (place : Place) (tree : FileTree χ) : SameAlong place tree tree :=
  fun _ _ => rfl

theorem SameAlong.trans (h : SameAlong place tree tree') (h' : SameAlong place tree' tree'') :
    SameAlong place tree tree'' := fun other hother => (h' other hother).trans (h other hother)

theorem SameAlong.mono {place' : Place} (h : SameAlong place tree tree') (hplace : place' <+: place) :
    SameAlong place' tree tree' := fun other hother => h other (hother.trans hplace)

theorem sameAlong_touch (place directory : Place) (tree : FileTree χ) (stamp : Stamp) :
    SameAlong place tree (tree.touch directory stamp) := fun other _ =>
  core_find_touch tree directory stamp other

section

variable (h : ¬ other <+: place)

include h

/-- An entry off the way can be replaced. -/
theorem sameAlong_put (entry : Entry χ) :
    SameAlong place tree (tree.put other entry) := by
  intro _ hplace'
  rw [find_put, if_neg]
  rintro rfl
  exact h hplace'

theorem sameAlong_erase : SameAlong place tree (tree.erase other) := by
  intro _ hplace'
  rw [find_erase, if_neg]
  rintro rfl
  exact h hplace'

theorem sameAlong_create (entry : Entry χ) (stamp : Stamp) :
    SameAlong place tree (tree.create other entry stamp) :=
  (sameAlong_put h entry).trans (sameAlong_touch _ _ _ _)

theorem sameAlong_unlink (stamp : Stamp) :
    SameAlong place tree (tree.unlink other stamp) :=
  (sameAlong_erase h).trans (sameAlong_touch _ _ _ _)

theorem sameAlong_write (content : χ) (changedNs : Int) :
    SameAlong place tree (tree.write other content changedNs) := by
  unfold write
  split
  · exact SameAlong.refl place tree
  · exact sameAlong_put h _

end

/-- The same directories can be opened. -/
theorem walk_of_sameAlong (h : SameAlong place tree tree') :
    ∀ (names : List String) (opened : Place), opened ++ names <+: place →
      tree'.walk opened names = tree.walk opened names
  | [], _, _ => rfl
  | name :: names, opened, hpre => by
      have hsplit : opened ++ name :: names = opened ++ [name] ++ names := by
        rw [List.append_assoc, List.singleton_append]
      rw [hsplit] at hpre
      have hfind := h (opened ++ [name]) ((List.prefix_append _ names).trans hpre)
      rw [walk, walk]
      rcases hfound : tree.find (opened ++ [name]) with _ | entry
      · rw [hfound, Option.map_none, Option.map_eq_none_iff] at hfind
        rw [hfind]
      · rw [hfound, Option.map_some] at hfind
        obtain ⟨entry', hent', heq⟩ := Option.map_eq_some_iff.1 hfind
        have hkind : entry'.isDirectory = entry.isDirectory := by
          rw [← Entry.core_isDirectory, heq, Entry.core_isDirectory]
        rw [hent']
        simp only [hkind, walk_of_sameAlong h names (opened ++ [name]) hpre]

theorem walk_place {names : List String} {opened found : Place}
    (h : tree.walk opened names = .ok found) : found = opened ++ names := by
  induction names generalizing opened with
  | nil =>
    rw [walk] at h
    cases h
    rw [List.append_nil]
  | cons name names ih =>
    rw [walk] at h
    split at h
    · cases h
    · split at h
      · rw [ih h, List.append_assoc, List.singleton_append]
      · cases h

/-- What has been walked through is there. -/
theorem find_of_walk {names : List String} {opened found : Place}
    (h : tree.walk opened names = .ok found) {count : Nat} (hcnt : count < names.length) :
    ∃ entry, tree.find (opened ++ names.take (count + 1)) = some entry ∧
      entry.isDirectory = true := by
  induction names generalizing opened count with
  | nil => cases hcnt
  | cons name names ih =>
    rw [walk] at h
    split at h
    · cases h
    · rename_i entry hent
      split at h
      · rename_i hdir
        rcases count with _ | count
        · exact ⟨entry, by simpa using hent, hdir⟩
        · rw [List.take_succ_cons, ← List.singleton_append, ← List.append_assoc]
          exact ih h (Nat.lt_of_succ_lt_succ hcnt)
      · cases h

end

end FileTree

end Durable
