/-
Changes to a file tree, one at a time.

A command that writes does so as a list of changes, made in order until
one fails; whatever was made before the failure stays. So the states
that an interrupted command can leave behind are the results of the
prefixes of its list.

A new file is readable by everyone; writing to a file that exists keeps
its mode, and writing through a link whose target is missing creates the
target. What is barred is not changed, and nothing is created in a barred
directory.
-/
import RouterSeed.Files.Tree

namespace RouterSeed

/-- One change. -/
inductive FileChange where
  /-- Make a directory and those above it that are missing. -/
  | makeDirectories (path : String)
  /-- Replace the contents of a file, or create it. -/
  | write (path : String) (data : Bytes)
  /-- Set who may do what with a file. -/
  | setMode (path : String) (mode : Nat)
  deriving DecidableEq, Repr

namespace FileTree

/-- The mode of a new file: its owner may write it, everyone may read it. -/
def newFileMode : Nat := 0o644

/-- The mode of a file for its owner alone. -/
def privateMode : Nat := 0o600

/-- Whether the program may change what stands at a place, or create
something there. -/
def mayPut (t : FileTree) (place : Place) : Bool :=
  !t.isBarred place.location && (place.node.isSome || !t.isBarred place.location.dropLast)

-- ====================================================== directories

/-- Make one directory. -/
def makeDirectory (t : FileTree) (path : String) : Except IoFault FileTree := do
  let place ← t.resolve path false
  match place.node with
  | some _ => .error .alreadyExists
  | none =>
    if t.mayPut place then .ok (t.put place.location .directory) else .error .permissionDenied

/-- Make a directory and those above it that are missing. `depth` bounds
how many there are. A directory that is there already is no failure. -/
def makeDirectoriesUpTo (t : FileTree) : (depth : Nat) → (path : String) →
    Except IoFault Unit × FileTree
  | 0, _ => (.error .rootless, t)
  | depth + 1, path =>
    if Path.components path = [] ∧ !Path.isAbsolute path then (.ok (), t)
    else
      match t.makeDirectory path with
      | .ok made => (.ok (), made)
      | .error .notFound =>
        match Path.parent? path with
        | none => (.error .rootless, t)
        | some above =>
          match makeDirectoriesUpTo t depth above with
          | (.error fault, t) => (.error fault, t)
          | (.ok (), t) =>
            match t.makeDirectory path with
            | .ok made => (.ok (), made)
            | .error fault => (if t.isDirectory path then .ok () else .error fault, t)
      | .error fault => (if t.isDirectory path then .ok () else .error fault, t)

/-- Make a directory and those above it that are missing. -/
def makeDirectories (t : FileTree) (path : String) : Except IoFault Unit × FileTree :=
  t.makeDirectoriesUpTo ((Path.components path).length + 2) path

-- ============================================================ files

/-- Replace the contents of a file, or create it. -/
def write (t : FileTree) (now : Instant) (path : String) (data : Bytes) :
    Except IoFault FileTree := do
  let place ← t.resolve path true
  if Path.endsInSlash path then .error .isADirectory
  else
    match place.node with
    | some .directory => .error .isADirectory
    | node =>
      if !t.mayPut place then .error .permissionDenied
      else
        match node with
        | some (.file _ mode _) => .ok (t.put place.location (.file data mode now))
        | _ => .ok (t.put place.location (.file data newFileMode now))

/-- Set who may do what with a file. -/
def setMode (t : FileTree) (path : String) (mode : Nat) : Except IoFault FileTree := do
  let (location, node) ← t.find path
  if t.isBarred location then .error .permissionDenied
  else
    match node with
    | .file data _ modified => .ok (t.put location (.file data mode modified))
    | _ => .ok t

-- ========================================================== changes

/-- Make one change. -/
def change (t : FileTree) (now : Instant) : FileChange → Except IoFault Unit × FileTree
  | .makeDirectories path => t.makeDirectories path
  | .write path data =>
    match t.write now path data with
    | .ok changed => (.ok (), changed)
    | .error fault => (.error fault, t)
  | .setMode path mode =>
    match t.setMode path mode with
    | .ok changed => (.ok (), changed)
    | .error fault => (.error fault, t)

/-- Make changes in order, until one fails. -/
def changeAll (t : FileTree) (now : Instant) : List FileChange → Except IoFault Unit × FileTree
  | [] => (.ok (), t)
  | first :: rest =>
    match t.change now first with
    | (.ok (), t) => changeAll t now rest
    | failed => failed

end FileTree

end RouterSeed
