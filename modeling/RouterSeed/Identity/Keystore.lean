/-
Keystores: directories of trusted certificates, laid out as
`<path>/<purpose>/<signer file>.crt`.

A look-up depends on one file only. Anything but a file in its place, a
directory or a link that leads nowhere, counts as no certificate.
-/
import RouterSeed.Certificate.Armor
import RouterSeed.Files.Tree
import RouterSeed.Identity.SignerFile

namespace RouterSeed

/-- A directory of trusted certificates. -/
structure Keystore where
  path : String
  deriving DecidableEq, Repr

namespace Keystore

/-- The purpose that reseed signers have. -/
def reseedPurpose : String := "reseed"

/-- Where the certificate of a signer is kept. -/
def certificatePath (store : Keystore) (purpose signerId : String) : String :=
  Path.join (Path.join store.path purpose) (SignerFile.certificate signerId)

/-- The certificate in a file's text. The path is told where the text is
no PEM. -/
def readCertificate (path : String) (text : Bytes) : Except Failure Certificate :=
  match Pem.decodeFirst text with
  | .ok block => Certificate.ofBlock block
  | .error fault => .error (.malformedCertificate (.notPemAt path fault))

/-- The certificate of a signer for a purpose. -/
def certificate (store : Keystore) (tree : FileTree) (purpose signerId : String) :
    Except Failure Certificate :=
  let path := store.certificatePath purpose signerId
  if !tree.isFile path then .error (.certificateNotFound path)
  else
    match tree.read path with
    | .ok text => readCertificate path text
    | .error fault => .error (.io fault)

/-- The certificate of a reseed signer. -/
def reseederCertificate (store : Keystore) (tree : FileTree) (signerId : String) :
    Except Failure Certificate :=
  store.certificate tree reseedPurpose signerId

end Keystore

end RouterSeed
