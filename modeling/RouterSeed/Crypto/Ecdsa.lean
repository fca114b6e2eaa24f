/-
Elliptic curve signatures.

The signer's random number is an argument, so signing is a function and
every outcome of the randomness is one of its values. Both numbers of a
signature lie between one and the order of the base point; a pair
outside is no signature at all, which is told apart from one that does
not verify.
-/
import RouterSeed.Crypto.Curve
import RouterSeed.Crypto.SignaturePair

namespace RouterSeed.Ecdsa

open Number Curve

/-- The number signed for a digest: its leftmost bytes, as many as a
coordinate has. -/
def digestNumber (c : Params) (digest : Bytes) : Nat := Bytes.toNat (digest.take c.width)

/-- The nonce that a random number stands for, between one and the order
less one. -/
def nonceOf (c : Params) (random : Nat) : Nat := random % (c.order - 1) + 1

/-- Sign a digest with the private scalar and a random number, unless the
random number gives a zero. -/
def sign? (c : Params) (scalar : Nat) (digest : Bytes) (random : Nat) : Option SignaturePair := do
  let nonce := nonceOf c random
  let point ← c.multipleOfBase? nonce
  let r := point.x % c.order
  let inverse ← inverse? nonce c.order
  let s := inverse * (digestNumber c digest + r * scalar) % c.order
  if r = 0 ∨ s = 0 then none else some ⟨r, s⟩

/-- The pair a signature encodes, if both numbers are in range. -/
def decode? (c : Params) (signature : Bytes) : Option SignaturePair := do
  let p ← SignaturePair.decode? signature
  if p.r < c.order ∧ p.s < c.order then some p else none

/-- Whether a pair is a signature of a digest under a public point. -/
def verify (c : Params) (public_ : Point) (digest : Bytes) (p : SignaturePair) : Bool :=
  match inverse? p.s c.order with
  | none => false
  | some inverse =>
    let u := digestNumber c digest * inverse % c.order
    let v := p.r * inverse % c.order
    let sum := Projective.add c (Projective.multiple c u (Projective.ofPoint c.base))
      (Projective.multiple c v (Projective.ofPoint public_))
    match sum.toPoint? c with
    | none => false
    | some point => point.x % c.order == p.r

end RouterSeed.Ecdsa
