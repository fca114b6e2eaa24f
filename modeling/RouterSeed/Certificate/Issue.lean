/-
Issuing the self-signed certificate of an operator.

The subject names the operator by the signer id and is its own issuer.
The certificate may sign others and may identify a client or a server,
is valid for 3652 days, and carries the signer id a second time as its
key identifier. The name is built attribute by attribute, so a signer id
may hold any character.

Certificates are issued for RSA keys and for keys on the two smaller
curves; other keys are of the wrong family, whatever the signer id.
-/
import RouterSeed.Certificate.Basic
import RouterSeed.Su3.Signature

namespace RouterSeed

open Der (Oid Element BitString)

-- ==================================================== names and oids

def countryOid : Oid := Oid.ofArcs [2, 5, 4, 6]
def localityOid : Oid := Oid.ofArcs [2, 5, 4, 7]
def organizationOid : Oid := Oid.ofArcs [2, 5, 4, 10]
def organizationalUnitOid : Oid := Oid.ofArcs [2, 5, 4, 11]
def commonNameOid : Oid := Oid.ofArcs [2, 5, 4, 3]

def basicConstraintsOid : Oid := Oid.ofArcs [2, 5, 29, 19]
def keyUsageOid : Oid := Oid.ofArcs [2, 5, 29, 15]
def extendedKeyUsageOid : Oid := Oid.ofArcs [2, 5, 29, 37]
def subjectKeyIdOid : Oid := Oid.ofArcs [2, 5, 29, 14]
def clientAuthOid : Oid := Oid.ofArcs [1, 3, 6, 1, 5, 5, 7, 3, 2]
def serverAuthOid : Oid := Oid.ofArcs [1, 3, 6, 1, 5, 5, 7, 3, 1]

/-- A name part of one attribute. -/
def namePart (oid : Oid) (tag : UInt8) (text : String) : NamePart :=
  [⟨oid, ⟨tag, Bytes.ofString text⟩⟩]

/-- The subject of a signer's certificate. -/
def subjectName (signerId : String) : Name :=
  [namePart countryOid Der.printableStringTag "XX",
    namePart organizationOid Der.utf8StringTag "I2P Anonymous Network",
    namePart organizationalUnitOid Der.utf8StringTag "I2P",
    namePart localityOid Der.utf8StringTag "XX",
    namePart commonNameOid Der.utf8StringTag signerId]

-- ======================================================= extensions

/-- The certificate may sign other certificates. -/
def basicConstraints : Extension :=
  ⟨basicConstraintsOid, true, Der.sequence [Der.encode Der.boolTag [0xFF]]⟩

/-- The key signs data (bit zero) and certificates (bit five). -/
def keyUsage : Extension := ⟨keyUsageOid, true, BitString.encode ⟨2, [0x84]⟩⟩

/-- The key identifies clients and servers. -/
def extendedKeyUsage : Extension :=
  ⟨extendedKeyUsageOid, true, Der.sequence [clientAuthOid.encode, serverAuthOid.encode]⟩

/-- The key is identified by the signer id. -/
def subjectKeyId (signerId : String) : Extension :=
  ⟨subjectKeyIdOid, false, Der.encode Der.octetStringTag (Bytes.ofString signerId)⟩

-- ======================================================== algorithms

/-- How a certificate is signed with a key: the algorithm and its digest.
Keys of other families issue no certificates. -/
def issuingAlgorithm? : PrivateKey → Option (AlgorithmIdentifier × Digest.Algorithm)
  | .rsa _ =>
    some (⟨Oid.ofArcs [1, 2, 840, 113549, 1, 1, 11], some AlgorithmIdentifier.nullParameter⟩, .sha256)
  | .ecdsa key =>
    match key.curve with
    | .p256 => some (⟨Oid.ofArcs [1, 2, 840, 10045, 4, 3, 2], none⟩, .sha256)
    | .p384 => some (⟨Oid.ofArcs [1, 2, 840, 10045, 4, 3, 3], none⟩, .sha384)
    | .p521 => none
  | .dsa _ => none

-- ========================================================== issuing

/-- How long a certificate is valid, in seconds. -/
def certificateLifetime : Nat := 3652 * 24 * 60 * 60

/-- A serial number of 16 bytes: positive, and not starting with a zero. -/
def serialNumber (random : Nat) : Bytes :=
  match Bytes.ofNat 16 random with
  | first :: rest => ((first &&& 0x7F) ||| 0x01) :: rest
  | [] => []

/-- What an issue takes from outside: the clock, in whole seconds since
1970, and two random numbers. -/
structure IssueInputs where
  now : Nat
  serialRandom : Nat
  signatureRandom : Nat

/-- The part of the certificate that is signed. -/
def certificateBody? (signerId : String) (key : PublicKey) (algorithm : AlgorithmIdentifier)
    (inputs : IssueInputs) : Option CertificateBody := do
  let notBefore ← Der.Time.ofSeconds? inputs.now
  let notAfter ← Der.Time.ofSeconds? (inputs.now + certificateLifetime)
  some
    { version := .v3
      serial := serialNumber inputs.serialRandom
      algorithm
      issuer := subjectName signerId
      validity := ⟨notBefore, notAfter⟩
      subject := subjectName signerId
      subjectKey := .ofPublicKey key
      issuerId := none
      subjectId := none
      extensions := some [basicConstraints, keyUsage, extendedKeyUsage, subjectKeyId signerId] }

/-- Issue the self-signed certificate of a signer. -/
def issueCertificate (signerId : String) (key : PrivateKey) (inputs : IssueInputs) :
    Except Failure Certificate :=
  match issuingAlgorithm? key with
  | none => .error .keyTypeMismatch
  | some (algorithm, digest) =>
    match certificateBody? signerId key.publicKey algorithm inputs with
    | none => .error (.signingFailed .dateOutOfRange)
    | some body =>
      if Der.maxLength < body.encode.length then .error (.signingFailed .certificateTooLong)
      else do
        let signature ← Su3.signWith key digest body.encode inputs.signatureRandom
        .ok ⟨body, algorithm, .ofBytes signature⟩

/-- The digest that a certificate's own key verifies it with. -/
def selfDigest? : PublicKey → Option Digest.Algorithm
  | .rsa _ => some .sha256
  | .ecdsa .p256 _ => some .sha256
  | .ecdsa .p384 _ => some .sha384
  | _ => none

/-- Verify a certificate with the key it carries. -/
def Certificate.verifySelf (c : Certificate) : Except Failure Unit := do
  let key ← c.publicKey
  match selfDigest? key, c.signature.bytes? with
  | some digest, some signature => Su3.verifyWith key digest c.body.encode signature
  | none, _ => .error .keyTypeMismatch
  | some _, none => .error .malformedSignature

end RouterSeed
