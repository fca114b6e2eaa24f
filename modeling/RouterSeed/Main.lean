/-
The program: `Command` does the thinking, and this module does the rest.

A command's files are looked at first and handed over as a tree; what the
command decides is then done to the real files, one change at a time.
What is there and cannot be read is barred in the tree; a path that leads
nowhere is left out of it.
-/
import RouterSeed.Command.Arguments
import RouterSeed.Command.Plan
import RouterSeed.Command.Usage
import RouterSeed.Digest.Draws
import RouterSeed.Number.Power
import RouterSeed.Server.Loop
import Std.Time.DateTime.Timestamp

namespace RouterSeed.Program

/-- What the program is called. -/
def programName : String := "router-seed"

-- ======================================================== observing

/-- The absolute path of a location. -/
def pathOf (location : Location) : String := "/" ++ "/".intercalate location

/-- The location that a path means, links aside. -/
def locationOf (tree : FileTree) (path : String) : Location :=
  (Path.names path).foldl
    (fun here name => if name = "." then here else if name = ".." then here.dropLast else here ++ [name])
    (if Path.isAbsolute path then [] else tree.workingDirectory)

/-- The bytes of a file, if it can be read. -/
def contents? (path : String) : IO (Option Bytes) := do
  try
    return some (← IO.FS.readBinFile path).data.toList
  catch _ => return none

/-- Take what stands at a location into the tree. -/
def observeAt (tree : FileTree) (location : Location) : IO FileTree := do
  try
    let place ← IO.FS.realPath (pathOf location)
    let found ← place.metadata
    if ← place.isDir then return tree.put location .directory
    let modified : Instant := ⟨found.modified.sec * 1000000000 + found.modified.nsec.toNat⟩
    match ← contents? place.toString with
    | some data => return tree.put location (.file data FileTree.newFileMode modified)
    | none => return (tree.put location (.file [] FileTree.newFileMode modified)).bar location
  catch _ => return tree

/-- Take what stands at a path, and the directories above it, into the
tree. -/
def observe (tree : FileTree) (path : String) : IO FileTree := do
  let location := locationOf tree path
  (List.range location.length).foldlM (fun tree i => observeAt tree (location.take (i + 1))) tree

/-- Take a directory into the tree, with those of its contents whose names
are wanted. -/
def observeInside (tree : FileTree) (path : String) (wanted : String → Bool) : IO FileTree := do
  let tree ← observe tree path
  try
    let place ← IO.FS.realPath (pathOf (locationOf tree path))
    let names := (← place.readDir).toList.map (·.fileName)
    (names.filter wanted).foldlM (fun tree name => observe tree (Path.join path name)) tree
  catch _ => return if tree.isDirectory path then tree.bar (locationOf tree path) else tree

/-- Take a netDb into the tree. -/
def observeNetDb (tree : FileTree) (path : String) : IO FileTree := do
  let wanted (name : String) := NetDb.isDescriptorName name || NetDb.isShelfName name
  let tree ← observeInside tree path wanted
  let shelves := ((tree.list path).toOption.getD []).filter NetDb.isShelfName
  let inside := (shelves.map (Path.join path)).filter tree.isDirectory
  inside.foldlM (fun tree shelf => observeInside tree shelf NetDb.isDescriptorName) tree

/-- Take the files that settings name into the tree. -/
def observeConfigured (tree : FileTree) (path : String) : IO FileTree := do
  let tree ← observe tree path
  match Config.load tree path with
  | .error _ => return tree
  | .ok config =>
    let tree ← config.signingKey.toList.foldlM observe tree
    observeNetDb tree config.netDb

/-- An empty tree that starts where the program was started. -/
def emptyTree : IO FileTree := do
  let here ← IO.currentDir
  let tree : FileTree := { nodes := [], workingDirectory := Path.names here.toString }
  observe tree "."

/-- The files that a command looks at. -/
def observeFor (command : Command) : IO FileTree := do
  let tree ← emptyTree
  match command with
  | .keygen .. => return tree
  | .verify file _ keystore purpose _ =>
    let tree ← observe tree file
    observeInside tree (Path.join keystore purpose) fun _ => true
  | .build config _ => observeConfigured tree config
  | .run config => observeConfigured tree config

-- =========================================================== inputs

/-- The time. -/
def clock : IO Instant := do
  let now ← Std.Time.Timestamp.now
  return ⟨now.toNanosecondsSinceUnixEpoch.val⟩

/-- Everything random and the time, for one command or one rebuild. -/
def freshInputs : IO CommandInputs := do
  let now ← clock
  let seed := (← IO.getRandomBytes 64).data.toList
  let seconds := now.seconds.toNat
  let draw := Digest.draw seed
  return {
    issue := ⟨seconds, draw 0 0, draw 0 1⟩
    draws := draw 1
    now
    task := fun i => ⟨seconds, draw (2 * i + 2), draw (2 * i + 3)⟩ }

-- ========================================================== changing

/-- Whether a mode has a bit set. -/
def hasBit (mode bit : Nat) : Bool := mode / 2 ^ bit % 2 = 1

/-- The rights in three bits of a mode, the last of which is `bit`. -/
def rightsOf (mode bit : Nat) : IO.AccessRight :=
  { read := hasBit mode (bit + 2), write := hasBit mode (bit + 1), execution := hasBit mode bit }

/-- Make one change to the real files. -/
def makeChange : FileChange → IO Unit
  | .makeDirectories path => IO.FS.createDirAll path
  | .write path data => IO.FS.writeBinFile path ⟨data.toArray⟩
  | .setMode path mode =>
    IO.setAccessRights path
      { user := rightsOf mode 6, group := rightsOf mode 3, other := rightsOf mode 0 }

/-- What the operating system said when a change failed. -/
def faultMessage : IO.Error → String
  | .noFileOrDirectory .. => IoFault.notFound.message
  | .alreadyExists .. => IoFault.alreadyExists.message
  | other => other.toString

/-- Tell why a command failed, and the number that says so. -/
def fail (message : String) : IO UInt32 := do
  IO.eprintln ("Error: " ++ message)
  return 1

-- ========================================================== running

/-- Rebuild at once and after every interval, until the process is
stopped. -/
partial def serve (server : Server) (session : CacheSession) : IO UInt32 := do
  let tree ← observeNetDb (← emptyTree) server.config.netDb
  let inputs ← freshInputs
  let (result, around) := server.rebuild ⟨session, .silent⟩ ⟨tree, inputs.now, inputs.task, inputs.now⟩
  match result with
  | .ok generation => IO.eprintln ("installed bundles: " ++ toString generation.bundles.length)
  | .error failure => IO.eprintln failure.message
  IO.sleep (UInt32.ofNat (min (server.tickInterval.seconds * 1000) (2 ^ 32 - 1)))
  serve server around.session

/-- Carry a plan out. -/
def carryOut : Plan → IO UInt32
  | .refuse printed failure => do
    IO.print printed
    fail failure.message
  | .write printed changes closing => do
    IO.print printed
    try
      changes.forM makeChange
    catch fault => return ← fail (faultMessage fault)
    IO.print closing
    return 0
  | .serve server => serve server .new

/-- Do what a command line asks for. -/
def run (arguments : List String) : IO UInt32 := do
  match Request.ofArguments arguments with
  | .help =>
    IO.print (usage programName)
    return 0
  | .version =>
    IO.print (versionLine programName)
    return 0
  | .misuse =>
    IO.eprint (usage programName)
    return UInt32.ofNat misuseExitCode
  | .perform command =>
    let tree ← observeFor command
    let inputs ← freshInputs
    carryOut (command.plan tree inputs)

end RouterSeed.Program

/-- The program. -/
def main (arguments : List String) : IO UInt32 := RouterSeed.Program.run arguments
