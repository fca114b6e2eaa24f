/-
DSA signatures.

The digest is cut to as many whole bytes as the order has, which is one
byte less than its length when its top bits are zero. As with the
curves, the signer's random number is an argument.
-/
import RouterSeed.Crypto.SignaturePair
import RouterSeed.Number.Modular

namespace RouterSeed.Dsa

open Number

/-- The public half of a key: a prime, the order of a subgroup, its
generator, and a power of the generator. -/
structure PublicKey where
  prime : Nat
  order : Nat
  generator : Nat
  power : Nat
  deriving DecidableEq, Repr

/-- A key pair. -/
structure PrivateKey where
  publicKey : PublicKey
  secret : Nat
  deriving DecidableEq, Repr

/-- The power lies in the subgroup and is not trivial. -/
def PublicKey.IsUsable (key : PublicKey) : Prop :=
  2 ≤ key.prime ∧ 2 ≤ key.order ∧ key.generator ≤ key.prime ∧ 2 ≤ key.power
    ∧ powMod key.power key.order key.prime = 1

instance (key : PublicKey) : Decidable key.IsUsable := by
  unfold PublicKey.IsUsable; infer_instance

/-- The number signed for a digest. -/
def PublicKey.digestNumber (key : PublicKey) (digest : Bytes) : Nat :=
  Bytes.toNat (digest.take (bitLength key.order / 8))

/-- Sign a digest with a random number, unless it gives a zero. -/
def sign? (key : PrivateKey) (digest : Bytes) (random : Nat) : Option SignaturePair := do
  let public_ := key.publicKey
  let nonce := random % (public_.order - 1) + 1
  let r := powMod public_.generator nonce public_.prime % public_.order
  let inverse ← inverse? nonce public_.order
  let s := inverse * (public_.digestNumber digest + key.secret * r) % public_.order
  if r = 0 ∨ s = 0 then none else some ⟨r, s⟩

/-- Whether a pair is a signature of a digest. -/
def verify (key : PublicKey) (digest : Bytes) (p : SignaturePair) : Bool :=
  if key.order ≤ p.r ∨ key.order ≤ p.s then false
  else
    match inverse? p.s key.order with
    | none => false
    | some inverse =>
      let u := key.digestNumber digest * inverse % key.order
      let v := p.r * inverse % key.order
      powMod key.generator u key.prime * powMod key.power v key.prime % key.prime % key.order == p.r

end RouterSeed.Dsa
