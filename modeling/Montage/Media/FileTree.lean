import Montage.Double.Arith
import Montage.Media.FilePath

/-!
# Trees of files

A `FileTree` lists directories and files by their place below the root, and relative paths
start at one of its directories.  A file has a time of its last change, in seconds.
Following the text of a path takes it name by name; a single point stays where it is and
double points lead back to the directory before, so that every name on the way must be that
of a directory.  Names are short, and so are whole paths: one that is too long is refused, as
soon as following the path has come to it.

There are no links in a tree, so every file has a single place.
-/

namespace Montage

/-- What is found at a place. -/
inductive FileEntry where
  | directory
  | file (changed : Int)
  deriving DecidableEq, Repr

/-- Directories and files below the root. -/
structure FileTree where
  entries : List (List String × FileEntry) := []
  /-- The place of the directory where relative paths start.  Unless it is given, its name is
  empty, and no path from the root can lead there. -/
  here : List String := [""]

namespace FileTree

/-- The tree of what is listed by its place below the directory where relative paths start. -/
def ofHere (entries : List (List String × FileEntry)) : FileTree :=
  let t : FileTree := {}
  { t with entries := entries.map fun (place, entry) => (t.here ++ place, entry) }

/-- The greatest number of bytes of a name. -/
def maxNameBytes : Nat := 255

/-- The greatest number of bytes of a path. -/
def maxPathBytes : Nat := 4095

/-- What is at a place.  The directories on the way to where relative paths start are always
there. -/
def at? (t : FileTree) (place : List String) : Option FileEntry :=
  if place.isPrefixOf t.here then some .directory else t.entries.lookup place

/-- The place to which a name leads from another one.  There need not be anything.  The root
is the directory before itself. -/
def step (t : FileTree) (place : List String) (name : String) :
    Except FileRefusal (List String) :=
  match t.at? place with
  | none => .error .notFound
  | some (.file _) => .error .notADirectory
  | some .directory =>
    if name = "." then .ok place
    else if name = ".." then .ok place.dropLast
    else if maxNameBytes < name.utf8ByteSize then .error .nameTooLong
    else .ok (place ++ [name])

/-- The place to which names lead from another one.  There need not be anything. -/
def follow (t : FileTree) (place : List String) :
    List String → Except FileRefusal (List String)
  | [] => .ok place
  | name :: rest => do follow t (← t.step place name) rest

/-- The place where a path starts, unless it is no path for a file system, or too long. -/
def origin (t : FileTree) (path : String) : Except FileRefusal (List String) :=
  if path = "" || PathText.hasNull path then .error .notFound
  else if maxPathBytes < path.utf8ByteSize then .error .nameTooLong
  else .ok (if PathText.slashes path = 0 then t.here else [])

/-- The place to which a path leads. -/
def locate (t : FileTree) (path : String) : Except FileRefusal (List String) := do
  t.follow (← t.origin path) (PathText.names path)

/-- Whether there is anything where a path leads. -/
def contains (t : FileTree) (path : String) : Bool :=
  match t.locate path with
  | .ok place => (t.at? place).isSome
  | .error _ => false

/-- The state of the file that a path leads to, if there is one.  A path that is too long
cannot even be looked at. -/
def file? (t : FileTree) (path : String) : Except Fault (Option FileState) :=
  match t.locate path with
  | .ok place =>
    match t.at? place with
    | some (.file changed) => .ok (some ⟨⟨1, place⟩, .ofInt changed⟩)
    | _ => .ok none
  | .error .nameTooLong => .error (.file .nameTooLong path)
  | .error _ => .ok none

/-- The files of a tree, as they can be asked about. -/
def fileSystem (t : FileTree) : FileSystem where
  isFile path := return (← t.file? path.toText).isSome
  resolved path := return ((← t.file? path.toText).map (·.place)).getD path
  changed path := do
    match ← t.file? path.toText with
    | some state => return state.changed
    | none => throw (.file .notFound path.toText)

/-! ### Changes

What was made before a change is refused stays. -/

/-- The fault of a change at a path.  A null character in the path is one of its own. -/
def refusal (cause : FileRefusal) (path : String) : Fault :=
  if PathText.hasNull path then .nullInName else .file cause path

/-- The tree without what is at a place. -/
def without (t : FileTree) (place : List String) : FileTree :=
  { t with entries := t.entries.filter (·.1 ≠ place) }

/-- The tree with an entry put at a place. -/
def put (t : FileTree) (place : List String) (e : FileEntry) : FileTree :=
  { t with entries := (place, e) :: (t.without place).entries }

/-- The tree with a directory at a place if there is nothing yet. -/
def fill (t : FileTree) (place : List String) : FileTree :=
  if (t.at? place).isNone then t.put place .directory else t

/-- The tree with a directory at a path, where the directory above it is there already. -/
def makeDirectory (t : FileTree) (path : String) : FileTree × Except Fault Unit :=
  match t.locate path with
  | .error cause => (t, .error (refusal cause path))
  | .ok place =>
    match t.at? place with
    | some (.file _) => (t, .error (refusal .taken path))
    | _ => (t.fill place, .ok ())

/-- Whether there is something at a path after a directory was to be made there. -/
def isThere : Except Fault Unit → Bool
  | .ok () => true
  | .error (.file .taken _) => true
  | .error _ => false

/-- The tree with a directory at a path and those on the way to it.  The path above it is
made first if nothing is there.  If a file turns out to be there, the refusal is that of the
path below it. -/
def addDirectory (t : FileTree) (path : String) : FileTree × Except Fault Unit :=
  if (PathText.stripped path).2 = "" then t.makeDirectory path
  else
    let above := (PathText.stripped path).1
    if above = "" || t.contains above then t.makeDirectory path
    else
      let (t, outcome) := addDirectory t above
      if !isThere outcome then (t, outcome)
      else if (PathText.stripped path).2 = "." then (t, .ok ())
      else t.makeDirectory path
termination_by path.toList.length
decreasing_by
  exact PathText.length_stripped_above_lt (by assumption)

/-- The tree with a file at a path, changed at the given time, and the directories on the way
to it.  A directory at the path is no file and is refused, and so is the text of one. -/
def addFile (t : FileTree) (path : String) (changed : Int) : FileTree × Except Fault Unit :=
  let above := (PathText.divided path).1
  match if above = "" then (t, .ok ()) else t.addDirectory above with
  | (t, .error fault) => (t, .error fault)
  | (t, .ok ()) =>
    match t.locate path with
    | .error cause => (t, .error (refusal cause path))
    | .ok place =>
      if PathText.endsInSlash path || t.at? place = some .directory then
        (t, .error (refusal .isADirectory path))
      else (t.put place (.file changed), .ok ())

/-- The tree without the file at a path. -/
def removeFile (t : FileTree) (path : String) : Except Fault FileTree :=
  let refused := fun cause => Except.error (refusal cause path)
  match t.locate path with
  | .error cause => refused cause
  | .ok place =>
    match t.at? place with
    | some (.file _) =>
      if PathText.endsInSlash path then refused .notADirectory else .ok (t.without place)
    | some .directory => refused .isADirectory
    | none => refused .notFound

/-- The tree with files and directories at given paths only. -/
def ofLists (files : List (String × Int)) (directories : List String) :
    Except Fault FileTree := do
  let t ← files.foldlM
    (fun t (path, changed) =>
      let (t, outcome) := addFile t path changed
      outcome.map fun _ => t) {}
  directories.foldlM
    (fun t path =>
      let (t, outcome) := addDirectory t path
      outcome.map fun _ => t) t

end FileTree

end Montage
