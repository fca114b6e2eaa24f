/-
Checking a container offline, against the certificates that an operator
trusts.

Bytes that are no container are an error, and there is nothing to tell
about them. Everything else is told: whose certificate was asked for, and
what came of it. A certificate that is missing or useless and a signature
that does not match are outcomes, so that the header dump can be shown
beside them.
-/
import RouterSeed.Files.Change
import RouterSeed.Identity.Keystore
import RouterSeed.Su3.Verification

namespace RouterSeed.Su3

/-- What was found out about a container. -/
structure Inspection where
  file : File
  /-- The signer whose certificate was used. -/
  signer : String
  outcome : Except Failure Unit

namespace Inspection

/-- The dump of the header. -/
def summary (i : Inspection) : String := i.file.display

/-- Whether the signature holds. -/
def isValid (i : Inspection) : Bool :=
  match i.outcome with
  | .ok () => true
  | .error _ => false

end Inspection

/-- Look the signer's certificate up and verify the container with it. -/
def File.check (f : File) (store : Keystore) (tree : FileTree) (purpose signer : String) :
    Except Failure Unit := do
  let certificate ← store.certificate tree purpose signer
  f.verify certificate

/-- Decode a container and check it as one of `expected`, or else of the
signer that it names itself. -/
def inspect (store : Keystore) (tree : FileTree) (purpose : String) (expected : Option String)
    (data : Bytes) : Except Failure Inspection := do
  let file ← File.decode data
  let signer := expected.getD file.signerText
  .ok { file, signer, outcome := file.check store tree purpose signer }

-- ======================================================= extraction

/-- The name of the file that receives the content of a container. -/
def contentFile : String := "extracted.zip"

/-- Where the content of a container goes in a directory. -/
def contentPath (dir : String) : String := Path.join dir contentFile

/-- The change that stores the content of a container in a directory. -/
def File.extraction (f : File) (dir : String) : FileChange := .write (contentPath dir) f.content

end RouterSeed.Su3
