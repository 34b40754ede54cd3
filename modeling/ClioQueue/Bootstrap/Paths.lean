/-
# Absolute path texts

`PurePosixPath` and `posixpath.normpath`, as `bootstrap_journal.py` and
`bootstrap_reconcile_transaction.py` use them to decide that an owned path is one
absolute lexical path.

A path text is split at its slashes; `Path` drops empty names and `.`, keeps `..` and
remembers whether the text starts with no slash, with one, or with exactly two (which
POSIX lets mean something else).
-/

import Mathlib.Data.List.Basic
import Mathlib.Tactic.Common

namespace ClioQueue.Bootstrap

/-- `PurePosixPath`: the slashes of its root (none, one or two) and its names. -/
structure Path where
  slashes : Nat
  names : List String
  deriving DecidableEq, Repr

namespace Path

/-- The root `posixpath.splitroot` finds: three or more slashes count as one. -/
def rootSlashes : List Char → Nat
  | '/' :: '/' :: '/' :: _ => 1
  | '/' :: '/' :: _ => 2
  | '/' :: _ => 1
  | _ => 0

/-- `path.split("/")` without the empty names and the dots. -/
def splitNames (text : List Char) : List (List Char) :=
  (text.splitOn '/').filter fun name => !(name.isEmpty || name == ['.'])

/-- `Path(text)`. -/
def ofString (text : String) : Path where
  slashes := rootSlashes text.toList
  names := (splitNames text.toList).map String.ofList

/-- `Path.is_absolute`. -/
def isAbsolute (path : Path) : Bool := path.slashes ≠ 0

/-- `str(path)`, for an absolute path. -/
def toString (path : Path) : String :=
  String.ofList (List.replicate path.slashes '/') ++ "/".intercalate path.names

/-- `path.parent`. -/
def parent (path : Path) : Path := { path with names := path.names.dropLast }

/-- `path.name`. -/
def name (path : Path) : String := path.names.getLastD ""

/-- `path / relative`, for a relative text. -/
def join (path : Path) (relative : List String) : Path :=
  { path with names := path.names ++ relative }

/-- `path.relative_to(base).parts`; `none` is its `ValueError`. -/
def relativeTo (path base : Path) : Option (List String) :=
  if path.slashes = base.slashes ∧ base.names <+: path.names then
    some (path.names.drop base.names.length)
  else none

end Path

/-- The loop of `posixpath.normpath` over the names; `kept` is `new_comps`, last name first. -/
def normalizeNames (absolute : Bool) : (kept : List (List Char)) → List (List Char) → List (List Char)
  | kept, [] => kept.reverse
  | kept, name :: names =>
    if name ≠ ['.', '.'] ∨ (!absolute && kept.isEmpty) ∨ kept.head? = some ['.', '.'] then
      normalizeNames absolute (name :: kept) names
    else normalizeNames absolute kept.tail names

/-- `posixpath.normpath`. -/
def normpath (text : List Char) : List Char :=
  let slashes := Path.rootSlashes text
  let path := List.replicate slashes '/' ++
    List.intercalate ['/'] (normalizeNames (slashes ≠ 0) [] (Path.splitNames text))
  if path.isEmpty then ['.'] else path

/-- `any(character in path for character in "\x00\r\n")`. -/
def hasControl (text : String) : Bool :=
  text.toList.any fun c => c == '\x00' || c == '\r' || c == '\n'

/-- `Path(path).is_absolute()`, without `..` and equal to its `normpath`. -/
def isNormalizedAbsolute (text : String) : Bool :=
  (Path.ofString text).isAbsolute && !(Path.ofString text).names.contains ".." &&
    normpath text.toList == text.toList

end ClioQueue.Bootstrap
