/-
A file tree: the files, directories and symbolic links that a program
can see, and what a path means among them.

Every node stands at a location, the names on the way from the root; a
directory's contents are the nodes one name below it. A path is walked
one name at a time: each step needs a directory to stand in, a link
replaces its name by its target, and at most forty links are followed.
Every reading operation is a function of the tree and the path, so two
trees that agree where a path leads give the same answer.

Some locations may be barred to the program. What kind of thing stands
there and when it was changed is still told, and paths still lead through
it, but a barred file is not opened and a barred directory not listed.
-/
import RouterSeed.Bytes
import RouterSeed.Calendar
import RouterSeed.Failure
import RouterSeed.Files.Path

namespace RouterSeed

/-- The names on the way from the root. -/
abbrev Location := List String

/-- What stands at a location. -/
inductive Node where
  | file (data : Bytes) (mode : Nat) (modified : Instant)
  | directory
  | link (target : String)
  deriving DecidableEq, Repr

/-- All nodes below the root, where relative paths start, and where the
program may neither open nor change what stands there. -/
structure FileTree where
  nodes : List (Location × Node)
  workingDirectory : Location
  barred : List Location := []
  deriving DecidableEq, Repr

namespace FileTree

/-- The node at a location; the root is always a directory. -/
def nodeAt? (t : FileTree) (location : Location) : Option Node :=
  if location = [] then some .directory else t.nodes.lookup location

/-- Whether a location is barred to the program. -/
def isBarred (t : FileTree) (location : Location) : Bool := t.barred.contains location

/-- The tree with a location barred to the program. -/
def bar (t : FileTree) (location : Location) : FileTree :=
  { t with barred := location :: t.barred }

/-- The tree with a node put at a location. -/
def put (t : FileTree) (location : Location) (node : Node) : FileTree :=
  if t.nodes.any fun entry => entry.1 = location then
    { t with
      nodes := t.nodes.map fun entry => if entry.1 = location then (location, node) else entry }
  else { t with nodes := t.nodes ++ [(location, node)] }

/-- The names directly inside a location. -/
def namesIn (t : FileTree) (location : Location) : List String :=
  t.nodes.filterMap fun (place, _) =>
    if place.length = location.length + 1 ∧ place.take location.length = location then place.getLast?
    else none

-- ========================================================== walking

/-- The longest name, in bytes. -/
def maxNameLength : Nat := 255

/-- The longest path, in bytes. -/
def maxPathLength : Nat := 4095

/-- How many links one path may lead through. -/
def maxLinks : Nat := 40

/-- Where a path leads: a location in an existing directory, and the node
there if there is one. -/
structure Place where
  location : Location
  node : Option Node
  deriving DecidableEq, Repr

/-- How far a walk comes without following a link: to its end, or to a
link with what is left of the path behind it. -/
inductive Stop where
  | arrived (place : Place)
  | link (here : Location) (target : String) (rest : List String)
  deriving DecidableEq, Repr

/-- Walk from the directory at `here` along `path` up to the first link
that has to be followed. The last name may be missing, and if it is a
link, `follow` says whether to go on. -/
def stroll (t : FileTree) (follow : Bool) : (here : Location) → (path : List String) →
    Except IoFault Stop
  | here, [] => .ok (.arrived ⟨here, t.nodeAt? here⟩)
  | here, name :: rest =>
    match t.nodeAt? here with
    | some .directory =>
      if name = "." then stroll t follow here rest
      else if name = ".." then stroll t follow here.dropLast rest
      else if maxNameLength < name.utf8ByteSize then .error .nameTooLong
      else
        let next := here ++ [name]
        match t.nodeAt? next with
        | none => if rest = [] then .ok (.arrived ⟨next, none⟩) else .error .notFound
        | some (.link target) =>
          if rest = [] ∧ !follow then .ok (.arrived ⟨next, some (.link target)⟩)
          else .ok (.link here target rest)
        | some _ => stroll t follow next rest
    | _ => .error .notADirectory

/-- Walk from the directory at `here` along `path`, through at most so
many links. -/
def walk (t : FileTree) (follow : Bool) : (links : Nat) → (here : Location) →
    (path : List String) → Except IoFault Place
  | 0, here, path =>
    match t.stroll follow here path with
    | .ok (.arrived place) => .ok place
    | .ok (.link ..) => .error .tooManyLinks
    | .error fault => .error fault
  | links + 1, here, path =>
    match t.stroll follow here path with
    | .ok (.arrived place) => .ok place
    | .ok (.link here target rest) =>
      walk t follow links (if Path.isAbsolute target then [] else here) (Path.names target ++ rest)
    | .error fault => .error fault

/-- Where a path leads. -/
def resolve (t : FileTree) (path : String) (follow : Bool) : Except IoFault Place :=
  if path.toList.contains '\x00' then .error .nulInPath
  else if path = "" then .error .notFound
  else if maxPathLength < path.utf8ByteSize then .error .nameTooLong
  else walk t follow maxLinks (if Path.isAbsolute path then [] else t.workingDirectory) (Path.names path)

/-- The existing node that a path leads to, through links. A path with a
slash at its end leads to a directory or nowhere. -/
def find (t : FileTree) (path : String) : Except IoFault (Location × Node) := do
  let place ← t.resolve path true
  match place.node with
  | none => .error .notFound
  | some .directory => .ok (place.location, .directory)
  | some node =>
    if Path.endsInSlash path then .error .notADirectory else .ok (place.location, node)

-- ========================================================== reading

/-- The bytes of the file at a path. -/
def read (t : FileTree) (path : String) : Except IoFault Bytes :=
  match t.find path with
  | .ok (location, .file data _ _) =>
    if t.isBarred location then .error .permissionDenied else .ok data
  | .ok (location, _) => .error (if t.isBarred location then .permissionDenied else .isADirectory)
  | .error fault => .error fault

/-- The time of the last change of the file at a path, if it is one. -/
def modified? (t : FileTree) (path : String) : Option Instant :=
  match t.find path with
  | .ok (_, .file _ _ modified) => some modified
  | _ => none

/-- Whether a path leads to anything. -/
def pathExists (t : FileTree) (path : String) : Bool := (t.find path).toOption.isSome

/-- Whether a path leads to a file. -/
def isFile (t : FileTree) (path : String) : Bool :=
  match t.find path with
  | .ok (_, .file ..) => true
  | _ => false

/-- Whether a path leads to a directory. -/
def isDirectory (t : FileTree) (path : String) : Bool :=
  match t.find path with
  | .ok (_, .directory) => true
  | _ => false

/-- The names in the directory at a path. -/
def list (t : FileTree) (path : String) : Except IoFault (List String) :=
  match t.find path with
  | .ok (location, .directory) =>
    if t.isBarred location then .error .permissionDenied else .ok (t.namesIn location)
  | .ok _ => .error .notADirectory
  | .error fault => .error fault

end FileTree

end RouterSeed
