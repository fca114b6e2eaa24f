/-
The netDb directory of a router: one file for each known descriptor, in
the directory itself or in its subdirectories whose names start with an
`r`.

A scan lists the directory anew every time and takes the descriptors
that are not too old; a file from the future is not old at all. A file
or subdirectory that cannot be read is passed over, and only the netDb
itself has to be there.
-/
import RouterSeed.Files.Tree
import RouterSeed.RouterInfo

namespace RouterSeed

/-- A netDb directory, and how old a descriptor in it may be. -/
structure NetDb where
  path : String
  maxAge : Duration
  deriving DecidableEq, Repr

namespace NetDb

-- ============================================================ names

def namePrefix : List Char := "routerInfo-".toList
def nameSuffix : List Char := ".dat".toList

/-- Whether a file of this name holds a descriptor. -/
def isDescriptorName (name : String) : Bool :=
  namePrefix.isPrefixOf name.toList && nameSuffix.isSuffixOf name.toList

/-- Whether a directory of this name is looked into. -/
def isShelfName (name : String) : Bool := name.toList.head? == some 'r'

-- ========================================================== listing

/-- The directory and the name of each descriptor file below one name in
the netDb. -/
def placesUnder (tree : FileTree) (path name : String) : List (String × String) :=
  let inside := Path.join path name
  if tree.isDirectory inside && isShelfName name then
    match tree.list inside with
    | .ok names => (names.filter isDescriptorName).map fun n => (inside, n)
    | .error _ => []
  else if isDescriptorName name then [(path, name)]
  else []

/-- The directory and the name of each descriptor file. -/
def places (db : NetDb) (tree : FileTree) : Except IoFault (List (String × String)) := do
  let names ← tree.list db.path
  .ok (names.flatMap (placesUnder tree db.path))

-- ========================================================== reading

/-- Read a descriptor file, if it can be read and is not too old. -/
def readDescriptor? (tree : FileTree) (now : Instant) (maxAge : Duration) (dir name : String) :
    Option RouterInfo :=
  match tree.modified? (Path.join dir name) with
  | none => none
  | some modified =>
    if now.since modified ≤ maxAge then
      match tree.read (Path.join dir name) with
      | .ok data => some ⟨name, modified, data⟩
      | .error _ => none
    else none

/-- The descriptors in the netDb that are not too old. -/
def scan (db : NetDb) (tree : FileTree) (now : Instant) : Except IoFault (List RouterInfo) := do
  let places ← db.places tree
  .ok (places.filterMap fun (dir, name) => readDescriptor? tree now db.maxAge dir name)

end NetDb

end RouterSeed
