import Montage.Fault
import Montage.Media.PathText

/-!
# File paths

A path is a list of names, from the root or from wherever it is used.  Reading a path drops
repeated slashes, slashes at the end and names that are a single point; it keeps double
points, which only a look at the files can resolve.  A path that starts with exactly two
slashes has a root of its own.

What there is under paths is for a `FileSystem` to say.  Several paths can lead to one file.
-/

namespace Montage

/-- A path to a file or directory. -/
structure FilePath where
  /-- The number of slashes of the root: none, one or two. -/
  root : Nat
  names : List String
  deriving DecidableEq, Repr

namespace FilePath

/-- The number of slashes that count as the root, of those at the front. -/
def rootOf (slashes : Nat) : Nat :=
  if slashes = 2 then 2 else min slashes 1

/-- The path that a text denotes. -/
def ofText (text : String) : FilePath where
  root := rootOf (PathText.slashes text)
  names := (PathText.names text).filter (· ≠ ".")

/-- Names with slashes between them. -/
def joined : List String → String
  | [] => ""
  | [name] => name
  | name :: rest => name ++ "/" ++ joined rest

/-- The text of a path; that of the empty path is a single point. -/
def toText (p : FilePath) : String :=
  if p.root = 0 && p.names.isEmpty then "."
  else String.ofList (List.replicate p.root '/') ++ joined p.names

/-- Whether a path starts from the root. -/
def isAbsolute (p : FilePath) : Bool :=
  p.root ≠ 0

/-- A path as seen from another one. -/
def under (base p : FilePath) : FilePath :=
  if p.isAbsolute then p else { base with names := base.names ++ p.names }

/-- The last name of a path. -/
def name (p : FilePath) : String :=
  p.names.getLast?.getD ""

/-- The path without its last name. -/
def parent (p : FilePath) : FilePath :=
  { p with names := p.names.dropLast }

/-- The path with a tilde at the front replaced by a home directory, where `homes` lists
those of the users, and that of the empty name is one's own. -/
def expand (homes : List (String × String)) (p : FilePath) : Except Fault FilePath :=
  match p.root, p.names with
  | 0, first :: rest =>
    match first.toList with
    | '~' :: user =>
      match homes.lookup (String.ofList user) with
      | some home =>
        let home := ofText home
        .ok { home with names := home.names ++ rest }
      | none => .error (if user.contains '\x00' then .nullInName else .noHome)
    | _ => .ok p
  | _, _ => .ok p

end FilePath

/-! ### Files -/

/-- A file between two changes of it: the place where it is, and when it was last changed. -/
structure FileState where
  place : FilePath
  changed : Double
  deriving DecidableEq

/-- What can be asked about files.  Each question is answered or refused by itself, since files
may change from one question to the next. -/
structure FileSystem where
  /-- Whether a path leads to a file. -/
  isFile : FilePath → Except Fault Bool
  /-- The place to which a path leads, with no links and double points left in it. -/
  resolved : FilePath → Except Fault FilePath
  /-- When what a path leads to was last changed. -/
  changed : FilePath → Except Fault Double

/-- The state of the file that a path leads to, if it leads to one. -/
def FileSystem.state? (files : FileSystem) (path : FilePath) :
    Except Fault (Option FileState) := do
  if ← files.isFile path then
    let place ← files.resolved path
    let changed ← files.changed path
    return some ⟨place, changed⟩
  else return none

end Montage
