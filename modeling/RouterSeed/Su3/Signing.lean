/-
Signing a container, and verifying a signed one.

The header announces the length of the signature and is itself signed,
so a signature has to be made over a guess of its own length. The first
guess is the usual length for the key; if the signature comes out
otherwise, its length is the next guess. RSA signatures have one length
only and settle at once; the others do so after a few attempts, of which
there are at most 32.

A failure on any attempt leaves the container without a signature and
otherwise as it was.
-/
import RouterSeed.Su3.File
import RouterSeed.Su3.Signature

namespace RouterSeed.Su3.File

/-- How often a signature may come out with another length than the
header announced. -/
def maxAttempts : Nat := 32

/-- The container with an empty placeholder of the given length for its
signature. -/
def withPlaceholder (f : File) (length : Nat) : File :=
  { f with signature := List.replicate length 0 }

/-- Sign until the signature has the announced length. `signer attempt`
makes the signature of one attempt over the body it is given. What is
left of the container comes back with how that went; after a failure it
is the placeholder of the last attempt that is still in it. -/
def settle (signer : Nat → Bytes → Except Failure Bytes) :
    (attempts attempt length : Nat) → (f : File) → Except Failure Unit × File
  | 0, _, _, f => (.error (.signingFailed .lengthNotSettled), f)
  | attempts + 1, attempt, length, f =>
    let f := f.withPlaceholder length
    match f.body with
    | .error failure => (.error failure, f)
    | .ok body =>
      match signer attempt body with
      | .error failure => (.error failure, f)
      | .ok signature =>
        if signature.length = length then (.ok (), { f with signature })
        else settle signer attempts (attempt + 1) signature.length f

/-- Sign the container as its signature type asks for, drawing one random
number for each attempt. -/
def settleSignature (f : File) (key : PrivateKey) (randoms : Nat → Nat) :
    Except Failure Unit × File :=
  match signatureLengthHint key f.signatureType with
  | .error failure => (.error failure, f)
  | .ok length =>
    settle (fun attempt body => signMessage key f.signatureType body (randoms attempt))
      maxAttempts 0 length f

/-- What is left of a container that could not be signed has no signature,
not even a placeholder. -/
def withoutPlaceholder : Except Failure Unit × File → Except Failure Unit × File
  | (.ok (), signed) => (.ok (), signed)
  | (.error failure, unsettled) => (.error failure, { unsettled with signature := [] })

/-- The container after an attempt to sign it, with how that went: signed,
or without any signature. -/
def sign (f : File) (key : PrivateKey) (randoms : Nat → Nat) : Except Failure Unit × File :=
  withoutPlaceholder (f.settleSignature key randoms)

/-- Verify the signature with a public key. -/
def verifyWithKey (f : File) (key : PublicKey) : Except Failure Unit := do
  let body ← f.body
  verifySignature key f.signatureType body f.signature

end RouterSeed.Su3.File
