/-
RSA signatures with PKCS#1 v1.5 padding.

A signature is a power of the padded digest, as long as the modulus.
Padding is a function of the digest alone, so a signature is checked by
padding again and comparing all of it: there is nothing to parse, and a
signature that is not a number below the modulus, or has not exactly the
modulus's length, cannot match.

A private key is used only if it is consistent: the primes multiply to
the modulus and both exponents undo each other modulo each prime less
one. Consumed by the key module.
-/
import RouterSeed.Digest.Algorithm
import RouterSeed.Number.Prime

namespace RouterSeed.Rsa

open Number

-- ============================================================= keys

/-- The public half of a key pair. -/
structure PublicKey where
  modulus : Nat
  exponent : Nat
  deriving DecidableEq, Repr

/-- A key pair with two primes. -/
structure PrivateKey where
  modulus : Nat
  exponent : Nat
  privateExponent : Nat
  prime1 : Nat
  prime2 : Nat
  deriving DecidableEq, Repr

/-- The public half. -/
def PrivateKey.publicKey (key : PrivateKey) : PublicKey := ⟨key.modulus, key.exponent⟩

/-- The length of the modulus in bytes, and so of every signature. -/
def PublicKey.size (key : PublicKey) : Nat := byteLength key.modulus

/-- Moduli of at most 4096 bits, odd and above the exponent; odd
exponents from 3 to 33 bits. -/
def PublicKey.IsUsable (key : PublicKey) : Prop :=
  bitLength key.modulus ≤ 4096 ∧ key.modulus % 2 = 1 ∧ key.exponent < key.modulus
    ∧ key.exponent % 2 = 1 ∧ 2 ≤ key.exponent ∧ key.exponent < 2 ^ 33

instance (key : PublicKey) : Decidable key.IsUsable := by
  unfold PublicKey.IsUsable; infer_instance

/-- A usable public half, primes that make up the modulus, and exponents
that undo each other. -/
def PrivateKey.IsConsistent (key : PrivateKey) : Prop :=
  key.publicKey.IsUsable ∧ key.prime1 * key.prime2 = key.modulus
    ∧ 1 < key.prime1 ∧ 1 < key.prime2
    ∧ key.exponent * key.privateExponent % (key.prime1 - 1) = 1 % (key.prime1 - 1)
    ∧ key.exponent * key.privateExponent % (key.prime2 - 1) = 1 % (key.prime2 - 1)

instance (key : PrivateKey) : Decidable key.IsConsistent := by
  unfold PrivateKey.IsConsistent; infer_instance

-- ========================================================== padding

/-- The digest with the name of its algorithm. -/
def digestInfo (algorithm : Digest.Algorithm) (digest : Bytes) : Bytes :=
  Der.sequence
    [Der.sequence [algorithm.oid.encode, Der.encode Der.nullTag []],
      Der.encode Der.octetStringTag digest]

/-- The padded digest of `size` bytes, if at least eight bytes of padding
fit. -/
def pad? (size : Nat) (algorithm : Digest.Algorithm) (digest : Bytes) : Option Bytes :=
  let info := digestInfo algorithm digest
  if size < info.length + 11 then none
  else some ([0x00, 0x01] ++ List.replicate (size - info.length - 3) 0xFF ++ 0x00 :: info)

-- ========================================== signing and verification

/-- What keeps a key from signing. -/
inductive SigningError where
  | tooSmall
  | inconsistent
  deriving DecidableEq, Repr

/-- Sign a message. The signature is checked with the public half before
it leaves, so that a damaged key gives none. -/
def sign (key : PrivateKey) (algorithm : Digest.Algorithm) (message : Bytes) :
    Except SigningError Bytes :=
  let size := key.publicKey.size
  match pad? size algorithm (algorithm.digest message) with
  | none => .error .tooSmall
  | some padded =>
    let m := Bytes.toNat padded
    let s := powMod m key.privateExponent key.modulus
    if powMod s key.exponent key.modulus = m then .ok (Bytes.ofNat size s)
    else .error .inconsistent

/-- Whether `signature` is the signature of a message. -/
def verify (key : PublicKey) (algorithm : Digest.Algorithm) (message signature : Bytes) : Bool :=
  let s := Bytes.toNat signature
  signature.length = key.size && s < key.modulus &&
    pad? key.size algorithm (algorithm.digest message)
      = some (Bytes.ofNat key.size (powMod s key.exponent key.modulus))

-- ======================================================= generation

/-- The exponent of generated keys. -/
def generatedExponent : Nat := 65537

/-- Below this many bits there are too few primes to choose from: an
estimate of the number of primes with the right top bits, halved, has to
allow for two. -/
def fewestBits : Nat := 12

/-- How many draws one prime may take. -/
def triesPerPrime (bits : Nat) : Nat := 200 * (bits + 8)

/-- Two different primes with the given lengths for which the exponent
has an inverse, looked for at most `rounds` times. -/
def generateFrom (bits : Nat) (draws : Nat → Nat) : (rounds start : Nat) → Option PrivateKey
  | 0, _ => none
  | rounds + 1, start => do
    let (p, start) ← findPrime? (bits / 2) draws (triesPerPrime bits) start
    let (q, start) ← findPrime? (bits - bits / 2) draws (triesPerPrime bits) start
    match inverse? generatedExponent ((p - 1) * (q - 1)) with
    | some d =>
      let key : PrivateKey := ⟨p * q, generatedExponent, d, p, q⟩
      if p ≠ q ∧ bitLength (p * q) = bits ∧ key.IsConsistent then some key
      else generateFrom bits draws rounds start
    | none => generateFrom bits draws rounds start

/-- A new key with a modulus of `bits` bits, from a sequence of draws. -/
def generate? (bits : Nat) (draws : Nat → Nat) : Option PrivateKey :=
  if bits < fewestBits then none else generateFrom bits draws 100 0

end RouterSeed.Rsa
