/-
Building one bundle: a sample of the descriptors, zipped, in a container
that names its signer and is signed.

The version of a container is the time it was built, in seconds. It is
padded before the container is signed, so that what was signed is what
is written.
-/
import RouterSeed.Bundle.Payload
import RouterSeed.Identity.Basic
import RouterSeed.Number.Digits
import RouterSeed.Su3.Signing

namespace RouterSeed

/-- What one bundle takes from outside: the clock, in whole seconds since
1970, the draws of the sample, and one random number for each attempt to
sign. -/
structure BundleInputs where
  now : Nat
  draws : Nat → Nat
  signatureRandoms : Nat → Nat

/-- The version of a container that is built at the given time. -/
def versionAt (now : Nat) : Bytes := Bytes.ofString (String.ofList (Number.digits 10 now))

/-- A new container, built at the given time. -/
def Su3.File.newAt (now : Nat) : Su3.File := .empty (versionAt now)

/-- The container of a bundle before it is signed. -/
def unsignedBundle (payload : Bytes) (signerId : String) (signatureType : Su3.SignatureType)
    (now : Nat) : Su3.File :=
  { Su3.File.newAt now with
    signatureType
    fileType := .zip
    contentType := .reseed
    signerId := Bytes.ofString signerId
    content := payload }.padVersion

/-- Build and sign a bundle with `size` of the descriptors. -/
def buildBundle (infos : List RouterInfo) (size : Nat) (identity : SigningIdentity)
    (signatureType : Su3.SignatureType) (inputs : BundleInputs) : Except Failure Su3.File := do
  let payload ← buildPayload infos size inputs.draws
  let unsigned := unsignedBundle payload identity.signerId signatureType inputs.now
  match unsigned.sign identity.key inputs.signatureRandoms with
  | (.ok (), signed) => .ok signed
  | (.error failure, _) => .error failure

/-- Build and sign a bundle, and encode it. -/
def encodedBundle (infos : List RouterInfo) (size : Nat) (identity : SigningIdentity)
    (signatureType : Su3.SignatureType) (inputs : BundleInputs) : Except Failure Bytes := do
  let file ← buildBundle infos size identity signatureType inputs
  file.encode

end RouterSeed
