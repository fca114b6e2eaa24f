/-
Signing identities: the key pair of an operator with its certificate,
and the two files that keep it.

The key file holds the private key and then the certificate, the other
file the certificate alone, which is what verifiers are given. A key
file from elsewhere may hold any blocks in any order: the first key and
the first certificate count, and a missing certificate is issued anew.

Writing is a list of file changes. The key file is closed to everyone
but its owner right after it is written.
-/
import RouterSeed.Certificate.Armor
import RouterSeed.Certificate.Issue
import RouterSeed.Files.Change
import RouterSeed.Identity.SignerFile
import RouterSeed.Key.PrivateForm

namespace RouterSeed

/-- A private key with the signer it belongs to and its certificate. -/
structure SigningIdentity where
  signerId : String
  key : PrivateKey
  certificate : Certificate
  deriving DecidableEq, Repr

namespace SigningIdentity

-- ========================================================== issuing

/-- The identity of a key, with a new certificate. -/
def issue (signerId : String) (key : PrivateKey) (inputs : IssueInputs) :
    Except Failure SigningIdentity := do
  let certificate ← issueCertificate signerId key inputs
  .ok ⟨signerId, key, certificate⟩

/-- The identity of a new RSA key. -/
def generate (signerId : String) (bits : Nat) (draws : Nat → Nat) (inputs : IssueInputs) :
    Except Failure SigningIdentity :=
  match Rsa.generate? bits draws with
  | some key => issue signerId (.rsa key) inputs
  | none => .error (.signingFailed .noKey)

-- ========================================================== reading

/-- The tag of a block with an RSA key in its own form. -/
def rsaKeyTag : String := "RSA PRIVATE KEY"

/-- The tag of a block with a key in an envelope. -/
def keyTag : String := "PRIVATE KEY"

/-- Whether a block says that it holds a private key. -/
def holdsKey (block : Pem.Block) : Bool := block.tag = rsaKeyTag || block.tag = keyTag

/-- The private key that a block holds. -/
def keyOfBlock (block : Pem.Block) : Except Failure PrivateKey :=
  if block.tag = rsaKeyTag then
    match PrivateForm.decodeRsa? block.contents with
    | some key => .ok (.rsa key)
    | none => .error (.malformedCertificate .invalidPrivateKey)
  else
    match PrivateForm.decode? block.contents with
    | some key => .ok key
    | none => .error (.malformedCertificate .unsupportedPrivateKey)

/-- The identity in the blocks of a key file. -/
def ofBlocks (signerId : String) (blocks : List Pem.Block) (inputs : IssueInputs) :
    Except Failure SigningIdentity :=
  match blocks.find? holdsKey with
  | none => .error .missingSigningKey
  | some keyBlock => do
    let key ← keyOfBlock keyBlock
    match blocks.find? fun block => block.tag = Certificate.pemTag with
    | none => issue signerId key inputs
    | some block =>
      let certificate ← Certificate.ofBlock block
      .ok ⟨signerId, key, certificate⟩

/-- Load an identity from a key file. -/
def load (tree : FileTree) (path signerId : String) (inputs : IssueInputs) :
    Except Failure SigningIdentity :=
  match tree.read path with
  | .error fault => .error (.io fault)
  | .ok text =>
    match Pem.decodeAll text with
    | .error fault => .error (.malformedCertificate (.notPem fault))
    | .ok blocks => ofBlocks signerId blocks inputs

-- ========================================================== writing

/-- The block of the private key; only RSA keys are written. -/
def keyBlock (identity : SigningIdentity) : Except Failure Pem.Block :=
  match identity.key with
  | .rsa key =>
    match PrivateForm.encodeRsa? key with
    | some contents => .ok ⟨rsaKeyTag, contents⟩
    | none => .error (.signingFailed .unwritableKey)
  | _ => .error .keyTypeMismatch

/-- The text of the certificate, unless it is too long. -/
def certificateText (identity : SigningIdentity) : Except Failure Bytes :=
  if Der.maxLength < identity.certificate.encode.length then
    .error (.malformedCertificate .tooLong)
  else .ok identity.certificate.toPem

/-- The key file of an identity in a directory. -/
def keyPath (dir signerId : String) : String := Path.join dir (SignerFile.key signerId)

/-- The certificate file of an identity in a directory. -/
def certificatePath (dir signerId : String) : String :=
  Path.join dir (SignerFile.certificate signerId)

/-- The changes that store an identity in a directory. -/
def storing (identity : SigningIdentity) (dir : String) : Except Failure (List FileChange) := do
  let block ← identity.keyBlock
  let certificate ← identity.certificateText
  let keyPath := keyPath dir identity.signerId
  .ok
    [.makeDirectories dir,
      .write keyPath (Pem.encode block ++ certificate),
      .setMode keyPath FileTree.privateMode,
      .write (certificatePath dir identity.signerId) certificate]

/-- Store an identity in a directory: the path of its key file, and the
tree afterwards. -/
def save (identity : SigningIdentity) (tree : FileTree) (now : Instant) (dir : String) :
    Except Failure String × FileTree :=
  match identity.storing dir with
  | .error failure => (.error failure, tree)
  | .ok changes =>
    match tree.changeAll now changes with
    | (.ok (), tree) => (.ok (keyPath dir identity.signerId), tree)
    | (.error fault, tree) => (.error (.io fault), tree)

/-- Load the identity that a directory keeps; generate and store one if
there is none. -/
def loadOrCreate (tree : FileTree) (now : Instant) (dir signerId : String) (bits : Nat)
    (draws : Nat → Nat) (inputs : IssueInputs) : Except Failure SigningIdentity × FileTree :=
  let path := keyPath dir signerId
  if tree.pathExists path then (load tree path signerId inputs, tree)
  else
    match generate signerId bits draws inputs with
    | .error failure => (.error failure, tree)
    | .ok identity =>
      match identity.save tree now dir with
      | (.ok _, tree) => (.ok identity, tree)
      | (.error failure, tree) => (.error failure, tree)

end SigningIdentity

end RouterSeed
