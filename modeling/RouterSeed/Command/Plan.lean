/-
What a command does with the files that it finds.

A command first reads and decides, and then writes. Its decision is a
plan: a refusal, which writes nothing, or a list of changes to files made
in order, or a server to be run. So whatever keeps a command from
doing its work, short of a write that fails, leaves every file as it was.
-/
import RouterSeed.Command.Basic
import RouterSeed.Server.Rebuild
import RouterSeed.Su3.Inspection

namespace RouterSeed

-- ========================================================== results

/-- Why a command did not do its work. -/
inductive CommandFailure where
  | cause (failure : Failure)
  /-- A container was read and is not what its signer signed. -/
  | signature (signer : String) (failure : Failure)
  deriving DecidableEq, Repr

/-- The failure in words. -/
def CommandFailure.message : CommandFailure → String
  | .cause failure => failure.message
  | .signature signer failure =>
    "signature check with " ++ signer ++ " failed: " ++ failure.message

/-- What a command has decided. -/
inductive Plan where
  /-- Print this and fail. -/
  | refuse (printed : String) (failure : CommandFailure)
  /-- Print the first text, make the changes, and print the last text. -/
  | write (printed : String) (changes : List FileChange) (closing : String)
  /-- Run a server until it is told to stop. -/
  | serve (server : Server)

/-- What came of a command: what it printed, and why it failed if it
did. -/
structure CommandResult where
  printed : String
  failure : Option CommandFailure
  deriving DecidableEq, Repr

/-- Carry a plan out. A server does nothing to files. -/
def Plan.perform (plan : Plan) (tree : FileTree) (now : Instant) : CommandResult × FileTree :=
  match plan with
  | .refuse printed failure => (⟨printed, some failure⟩, tree)
  | .write printed changes closing =>
    match tree.changeAll now changes with
    | (.ok (), tree) => (⟨printed ++ closing, none⟩, tree)
    | (.error fault, tree) => (⟨printed, some (.cause (.io fault))⟩, tree)
  | .serve _ => (⟨"", none⟩, tree)

/-- The number that a process ends with. -/
def CommandResult.exitCode (r : CommandResult) : Nat :=
  match r.failure with
  | none => 0
  | some _ => 1

/-- The number that a process ends with if its words make no sense. -/
def misuseExitCode : Nat := 2

-- ============================================================ plans

/-- What a command takes from outside besides files: what a new
certificate needs, the draws of a new key, the clock, and the inputs of
each bundle. -/
structure CommandInputs where
  issue : IssueInputs
  draws : Nat → Nat
  now : Instant
  task : Nat → BundleInputs

namespace Command

/-- A refusal without a word. -/
def refusal (failure : Failure) : Plan := .refuse "" (.cause failure)

/-- Generate an identity and store it. -/
def keygenPlan (signer out : String) (bits : Nat) (inputs : CommandInputs) : Plan :=
  match SigningIdentity.generate signer bits inputs.draws inputs.issue with
  | .error failure => refusal failure
  | .ok identity =>
    match identity.storing out with
    | .error failure => refusal failure
    | .ok changes =>
      .write "" changes
        ("signing key: " ++ SigningIdentity.keyPath out signer ++ "\ncertificate: "
          ++ SigningIdentity.certificatePath out signer ++ "\n")

/-- What is printed of a container whose signature holds. -/
def validReport (inspection : Su3.Inspection) : String :=
  inspection.summary ++ "\nSignature: valid (" ++ inspection.signer ++ ")\n"

/-- What to do about a container that was inspected. -/
def verdict (inspection : Su3.Inspection) (extract : Option String) : Plan :=
  match inspection.outcome with
  | .error failure =>
    .refuse (inspection.summary ++ "\n") (.signature inspection.signer failure)
  | .ok () =>
    match extract with
    | none => .write (validReport inspection) [] ""
    | some dir =>
      .write (validReport inspection) [inspection.file.extraction dir]
        ("content written to " ++ Su3.contentPath dir ++ "\n")

/-- Check a file, and store its content if the signature holds. -/
def verifyPlan (tree : FileTree) (file : String) (signer : Option String)
    (keystore purpose : String) (extract : Option String) : Plan :=
  match tree.read file with
  | .error fault => refusal (.io fault)
  | .ok data =>
    match Su3.inspect ⟨keystore⟩ tree purpose signer data with
    | .error failure => refusal failure
    | .ok inspection => verdict inspection extract

/-- The name of the file of a bundle: its number, with at least three
digits. -/
def bundleFile (index : Nat) : String :=
  let digits := Number.digits 10 index
  "i2pseeds-" ++ String.ofList (List.replicate (3 - digits.length) '0' ++ digits) ++ ".su3"

/-- The changes that store bundles in a directory. -/
def storingBundles (out : String) (bundles : List Bytes) : List FileChange :=
  .makeDirectories out
    :: bundles.mapIdx fun index bundle => .write (Path.join out (bundleFile index)) bundle

/-- Build one generation and store its bundles. -/
def buildPlan (tree : FileTree) (config out : String) (inputs : CommandInputs) : Plan :=
  match Config.load tree config with
  | .error failure => refusal failure
  | .ok config =>
    let server := Server.ofConfig config tree inputs.issue
    match server.rebuild ⟨.new, .silent⟩ ⟨tree, inputs.now, inputs.task, inputs.now⟩ with
    | (.error failure, _) => refusal failure
    | (.ok generation, _) => .write "" (storingBundles out generation.bundles) ""

/-- Load the settings and start a server. -/
def runPlan (tree : FileTree) (config : String) (inputs : CommandInputs) : Plan :=
  match Config.load tree config with
  | .error failure => refusal failure
  | .ok config => .serve (Server.ofConfig config tree inputs.issue)

/-- What a command decides. -/
def plan (command : Command) (tree : FileTree) (inputs : CommandInputs) : Plan :=
  match command with
  | .keygen signer out bits => keygenPlan signer out bits inputs
  | .verify file signer keystore purpose extract =>
    verifyPlan tree file signer keystore purpose extract
  | .build config out => buildPlan tree config out inputs
  | .run config => runPlan tree config inputs

/-- Decide and carry it out. -/
def perform (command : Command) (tree : FileTree) (inputs : CommandInputs) :
    CommandResult × FileTree :=
  (command.plan tree inputs).perform tree inputs.now

end Command

end RouterSeed
