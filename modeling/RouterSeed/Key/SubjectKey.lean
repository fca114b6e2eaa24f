/-
Public keys as certificates carry them: an algorithm with its
parameters, and a bit string whose meaning the algorithm decides.

RSA keys are a sequence of modulus and exponent; keys on a curve name
the curve as the parameter and are a written point; DSA keys have their
domain numbers as parameters and are a single integer. A key that reads
but cannot be used (an even modulus, a point off the curve, a power
outside the subgroup) is refused here, so that nothing later has to ask.
-/
import RouterSeed.Failure
import RouterSeed.Key.Basic

namespace RouterSeed

open Der (Oid Element BitString)

-- ======================================================= algorithms

/-- An algorithm and its parameters. -/
structure AlgorithmIdentifier where
  oid : Oid
  parameters : Option Element
  deriving DecidableEq, Repr

namespace AlgorithmIdentifier

def encode (a : AlgorithmIdentifier) : Bytes :=
  Der.sequence [a.oid.encode, (a.parameters.map Element.encode).getD []]

/-- Read an algorithm and at most one parameter. -/
def reader : Der.Reader AlgorithmIdentifier :=
  Der.within Der.sequenceTag do
    let oid ← Der.oid
    if ← Der.atEnd then pure ⟨oid, none⟩
    else return ⟨oid, some (← Der.element)⟩

/-- The parameter that stands for no parameters. -/
def nullParameter : Element := ⟨Der.nullTag, []⟩

end AlgorithmIdentifier

def rsaEncryptionOid : Oid := Oid.ofArcs [1, 2, 840, 113549, 1, 1, 1]
def dsaOid : Oid := Oid.ofArcs [1, 2, 840, 10040, 4, 1]
def curveKeyOid : Oid := Oid.ofArcs [1, 2, 840, 10045, 2, 1]

-- ===================================================== subject keys

/-- A public key with its algorithm. -/
structure SubjectKey where
  algorithm : AlgorithmIdentifier
  key : BitString
  deriving DecidableEq, Repr

namespace SubjectKey

def encode (k : SubjectKey) : Bytes := Der.sequence [k.algorithm.encode, k.key.encode]

def reader : Der.Reader SubjectKey :=
  Der.within Der.sequenceTag do
    let algorithm ← AlgorithmIdentifier.reader
    let key ← Der.bitString
    pure ⟨algorithm, key⟩

/-- The written form of an RSA public key. -/
def encodeRsa (key : Rsa.PublicKey) : Bytes :=
  Der.sequence [Der.encodeUnsigned key.modulus, Der.encodeUnsigned key.exponent]

/-- Read an RSA public key that can be used. -/
def decodeRsa? (bytes : Bytes) : Option Rsa.PublicKey := do
  let key ← Der.whole (Der.within Der.sequenceTag do
    let modulus ← Der.unsigned
    let exponent ← Der.unsigned
    pure (⟨modulus, exponent⟩ : Rsa.PublicKey)) bytes
  if key.IsUsable then some key else none

/-- The parameters of a DSA key. -/
def dsaParameters (key : Dsa.PublicKey) : Element :=
  ⟨Der.sequenceTag,
    Der.encodeUnsigned key.prime ++ Der.encodeUnsigned key.order
      ++ Der.encodeUnsigned key.generator⟩

/-- Read a DSA public key that can be used, from its parameters and its
bytes. -/
def decodeDsa? (parameters : Option Element) (bytes : Bytes) : Option Dsa.PublicKey := do
  let parameters ← parameters
  if parameters.tag ≠ Der.sequenceTag then failure
  let power ← Der.whole Der.unsigned bytes
  let key ← Der.whole (do
    let prime ← Der.unsigned
    let order ← Der.unsigned
    let generator ← Der.unsigned
    pure (⟨prime, order, generator, power⟩ : Dsa.PublicKey)) parameters.content
  if key.IsUsable then some key else none

/-- The curve that the parameters name. -/
def curveOid? (parameters : Option Element) : Option Oid := do
  let parameters ← parameters
  if parameters.tag = Der.oidTag then Oid.ofContent parameters.content else none

/-- A public key as a certificate carries it. -/
def ofPublicKey : PublicKey → SubjectKey
  | .rsa key =>
    ⟨⟨rsaEncryptionOid, some AlgorithmIdentifier.nullParameter⟩, .ofBytes (encodeRsa key)⟩
  | .ecdsa curve point =>
    ⟨⟨curveKeyOid, some ⟨Der.oidTag, curve.oid.content⟩⟩, .ofBytes (curve.params.encode point)⟩
  | .dsa key => ⟨⟨dsaOid, some (dsaParameters key)⟩, .ofBytes (Der.encodeUnsigned key.power)⟩

/-- The public key itself. -/
def publicKey (k : SubjectKey) : Except CertificateFault PublicKey :=
  match k.key.bytes? with
  | none => .error .unalignedKey
  | some bytes =>
    if k.algorithm.oid = rsaEncryptionOid then
      match decodeRsa? bytes with
      | some key => .ok (.rsa key)
      | none => .error .invalidRsaKey
    else if k.algorithm.oid = curveKeyOid then
      match curveOid? k.algorithm.parameters with
      | none => .error .missingCurve
      | some oid =>
        match NamedCurve.ofOid? oid with
        | none => .error (.unsupportedCurve oid)
        | some curve =>
          match curve.params.decode? bytes with
          | some point => .ok (.ecdsa curve point)
          | none => .error .invalidPoint
    else if k.algorithm.oid = dsaOid then
      match decodeDsa? k.algorithm.parameters bytes with
      | some key => .ok (.dsa key)
      | none => .error .invalidDsaKey
    else .error (.unsupportedKeyAlgorithm k.algorithm.oid)

end SubjectKey

end RouterSeed
