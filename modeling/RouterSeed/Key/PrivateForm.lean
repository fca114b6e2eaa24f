/-
Private keys as key files carry them.

An RSA key may stand by itself as a sequence of its numbers, or, like a
key on a curve, inside an envelope that names its algorithm. Keys with
more than two primes are not supported, and the three derived numbers of
an RSA key are read but not believed: writing the key computes them
again.

A key on a curve may carry the curve and the public point a second time;
they have to agree with the scalar.
-/
import RouterSeed.Key.SubjectKey

namespace RouterSeed.PrivateForm

open Der (Oid Element BitString)

-- ============================================================== RSA

/-- Read a bare RSA key of two primes that is consistent. -/
def decodeRsa? (bytes : Bytes) : Option Rsa.PrivateKey := do
  let key ← Der.whole (Der.within Der.sequenceTag do
    let version ← Der.unsigned
    if version ≠ 0 then failure
    let modulus ← Der.unsigned
    let exponent ← Der.unsigned
    let privateExponent ← Der.unsigned
    let prime1 ← Der.unsigned
    let prime2 ← Der.unsigned
    let _exponent1 ← Der.unsigned
    let _exponent2 ← Der.unsigned
    let _coefficient ← Der.unsigned
    pure (⟨modulus, exponent, privateExponent, prime1, prime2⟩ : Rsa.PrivateKey)) bytes
  if key.IsConsistent then some key else none

/-- The bare form of an RSA key with the given third derived number. -/
def rsaForm (key : Rsa.PrivateKey) (coefficient : Nat) : Bytes :=
  Der.sequence <|
    [0, key.modulus, key.exponent, key.privateExponent, key.prime1, key.prime2,
      key.privateExponent % (key.prime1 - 1), key.privateExponent % (key.prime2 - 1),
      coefficient].map Der.encodeUnsigned

/-- The bare form of an RSA key, unless its primes share a factor or it
would be too long. -/
def encodeRsa? (key : Rsa.PrivateKey) : Option Bytes := do
  let coefficient ← Number.inverse? key.prime2 key.prime1
  let form := rsaForm key coefficient
  if Der.maxLength < form.length then none else some form

-- ======================================================== envelopes

/-- The inside of an envelope: the algorithm and the key's bytes. -/
structure Envelope where
  algorithm : AlgorithmIdentifier
  key : Bytes
  deriving DecidableEq, Repr

/-- One of the fields that may follow, which nothing here uses. -/
def ignoredField : Der.Reader Unit := do
  let e ← Der.element
  match Der.contextNumber? e.tag with
  | none => failure
  | some number =>
    match Der.whole Der.element e.content with
    | some _ => if e.tag = Der.explicitTag number then pure () else failure
    | none => failure

/-- Read an envelope. The public key is there exactly in version one, and
is of whole bytes; attributes are passed over. -/
def envelope : Der.Reader Envelope :=
  Der.within Der.sequenceTag do
    let version ← Der.unsigned
    if 1 < version then failure
    let algorithm ← AlgorithmIdentifier.reader
    let key ← Der.tagged Der.octetStringTag
    let publicBits ← Der.implicitBits? 1
    if (version = 1) ≠ publicBits.isSome then failure
    if publicBits.any fun bits => bits.unused ≠ 0 then failure
    let _ ← Der.many ignoredField
    pure ⟨algorithm, key⟩

-- ===================================================== curve keys

/-- The fewest bytes a scalar may have. -/
def minScalarLength : Nat := 24

/-- A scalar of a curve; a short one has leading zeros. -/
def scalarKey? (curve : NamedCurve) (bytes : Bytes) : Option EcdsaKey :=
  if bytes.length < minScalarLength ∨ curve.params.width < bytes.length then none
  else EcdsaKey.ofScalar? curve (Bytes.toNat bytes)

/-- The written point is the public point of the key. -/
def pointMatches (key : EcdsaKey) (written : Bytes) : Bool :=
  written = key.curve.params.encode key.point
    || written = key.curve.params.encodeCompressed key.point

/-- Read the bytes of a key on a curve. -/
def decodeScalar? (curve : NamedCurve) (bytes : Bytes) : Option EcdsaKey := do
  let (scalar, named, point) ← Der.whole (Der.within Der.sequenceTag do
    let version ← Der.unsigned
    if version ≠ 1 then failure
    let scalar ← Der.tagged Der.octetStringTag
    let named ← Der.explicit? 0 Der.oid
    let point ← Der.explicit? 1 Der.bitString
    pure (scalar, named, point)) bytes
  if named.any fun oid => oid ≠ curve.oid then failure
  let key ← scalarKey? curve scalar
  match point with
  | none => some key
  | some bits => do
    let written ← bits.bytes?
    if pointMatches key written then some key else none

-- ========================================================= any key

/-- The key in an envelope, if it is an RSA key or lies on a curve that
certificates can be issued for. -/
def Envelope.key? (e : Envelope) : Option PrivateKey :=
  if e.algorithm.oid = rsaEncryptionOid then
    if e.algorithm.parameters = some AlgorithmIdentifier.nullParameter then
      .rsa <$> decodeRsa? e.key
    else none
  else if e.algorithm.oid = curveKeyOid then do
    let oid ← SubjectKey.curveOid? e.algorithm.parameters
    let curve ← [NamedCurve.p256, NamedCurve.p384].find? fun curve => curve.oid = oid
    .ecdsa <$> decodeScalar? curve e.key
  else none

/-- Read a key in an envelope. -/
def decode? (bytes : Bytes) : Option PrivateKey := do
  let e ← Der.whole envelope bytes
  e.key?

end RouterSeed.PrivateForm
