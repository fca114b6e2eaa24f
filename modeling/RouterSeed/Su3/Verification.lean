/-
Verifying a container with the certificate of its signer.

A certificate adds one step between the two that verifying with a key
has: the signature type is known, the certificate has a usable key, the
key is of the right family. A container whose fields do not fit their
header is refused before any of them, because there is no message whose
signature could be checked.
-/
import RouterSeed.Certificate.Basic
import RouterSeed.Su3.Signing

namespace RouterSeed.Su3

/-- Verify a signature of a message with the key of a certificate. -/
def verifyCertified (certificate : Certificate) (t : SignatureType) (message signature : Bytes) :
    Except Failure Unit := do
  let _ ← t.scheme
  let key ← certificate.publicKey
  verifySignature key t message signature

/-- Verify the signature of a container with the certificate of its
signer. -/
def File.verify (f : File) (certificate : Certificate) : Except Failure Unit := do
  let body ← f.body
  verifyCertified certificate f.signatureType body f.signature

end RouterSeed.Su3
