/-
Signing and verifying by signature type.

A signature type asks for one key family and one digest. Every operation
checks the pairing first and in one order: an unknown type is refused
whatever the key is, and only then a key of the wrong family. A
signature that is not even the encoding of a pair of numbers is told
apart from one that does not verify; RSA signatures have no inner
structure and are only ever the second.

The randomness of a signer is one number per signature.
-/
import RouterSeed.Failure
import RouterSeed.Key.Basic
import RouterSeed.Su3.Codes

namespace RouterSeed.Su3

-- ========================================================== pairing

/-- What a signature type asks for. -/
structure Scheme where
  family : KeyFamily
  digest : Digest.Algorithm
  deriving DecidableEq, Repr

/-- The scheme of a signature type; unknown types have none. -/
def SignatureType.scheme? : SignatureType → Option Scheme
  | .dsaSha1 => some ⟨.dsa, .sha1⟩
  | .ecdsaSha256P256 => some ⟨.ecdsa .p256, .sha256⟩
  | .ecdsaSha384P384 => some ⟨.ecdsa .p384, .sha384⟩
  | .ecdsaSha512P521 => some ⟨.ecdsa .p521, .sha512⟩
  | .rsaSha256 => some ⟨.rsa, .sha256⟩
  | .rsaSha384 => some ⟨.rsa, .sha384⟩
  | .rsaSha512 => some ⟨.rsa, .sha512⟩
  | .unknown _ => none

/-- The scheme of a signature type, or why there is none. -/
def SignatureType.scheme (t : SignatureType) : Except Failure Scheme :=
  match t.scheme? with
  | some scheme => .ok scheme
  | none => .error (.unsupportedAlgorithm t.code)

/-- The digest that a key of the given family signs for a signature type. -/
def SignatureType.digestFor (t : SignatureType) (family : KeyFamily) :
    Except Failure Digest.Algorithm := do
  let scheme ← t.scheme
  if scheme.family = family then .ok scheme.digest else .error .keyTypeMismatch

-- ========================================================== signing

/-- The usual length of a signature: exact for RSA, typical for the
others. -/
def usualLength : PrivateKey → Nat
  | .rsa key => key.publicKey.size
  | .ecdsa key =>
    match key.curve with
    | .p256 => 71
    | .p384 => 103
    | .p521 => 138
  | .dsa _ => 46

/-- The length to expect of a signature of the given type. -/
def signatureLengthHint (key : PrivateKey) (t : SignatureType) : Except Failure Nat := do
  let _ ← t.digestFor key.family
  .ok (usualLength key)

/-- What an RSA key could not do. -/
def signingFailure : Rsa.SigningError → Failure
  | .tooSmall => .signingFailed .keyTooSmall
  | .inconsistent => .signingFailed .keyInconsistent

/-- Sign a message whose digest algorithm is settled, with a random
number for the families that need one. -/
def signWith (key : PrivateKey) (digest : Digest.Algorithm) (message : Bytes) (random : Nat) :
    Except Failure Bytes :=
  let encoded (pair? : Option SignaturePair) : Except Failure Bytes :=
    match pair? with
    | some pair => .ok pair.encode
    | none => .error (.signingFailed .noSignature)
  match key with
  | .rsa key => (Rsa.sign key digest message).mapError signingFailure
  | .ecdsa key => encoded (Ecdsa.sign? key.curve.params key.scalar (digest.digest message) random)
  | .dsa key => encoded (Dsa.sign? key (digest.digest message) random)

/-- Sign a message as the signature type asks for. -/
def signMessage (key : PrivateKey) (t : SignatureType) (message : Bytes) (random : Nat) :
    Except Failure Bytes := do
  let digest ← t.digestFor key.family
  signWith key digest message random

-- ======================================================== verifying

/-- Verify a signature of a message whose digest algorithm is settled. -/
def verifyWith (key : PublicKey) (digest : Digest.Algorithm) (message signature : Bytes) :
    Except Failure Unit :=
  let accept (verified : Bool) : Except Failure Unit :=
    if verified then .ok () else .error .invalidSignature
  match key with
  | .rsa key => accept (Rsa.verify key digest message signature)
  | .ecdsa curve point =>
    match Ecdsa.decode? curve.params signature with
    | none => .error .malformedSignature
    | some pair => accept (Ecdsa.verify curve.params point (digest.digest message) pair)
  | .dsa key =>
    match SignaturePair.decode? signature with
    | none => .error .malformedSignature
    | some pair => accept (Dsa.verify key (digest.digest message) pair)

/-- Verify a signature of a message as the signature type asks for. -/
def verifySignature (key : PublicKey) (t : SignatureType) (message signature : Bytes) :
    Except Failure Unit := do
  let digest ← t.digestFor key.family
  verifyWith key digest message signature

end RouterSeed.Su3
