/-
The keys an operator can sign with, and their public halves.

There are five families, one for each way of signing: RSA, the three
curves, and DSA. A private key knows its public half; for the curves it
carries the public point, which `ofScalar?` computes once. Consumed by
the signature, certificate and identity modules.
-/
import RouterSeed.Crypto.Dsa
import RouterSeed.Crypto.Ecdsa
import RouterSeed.Crypto.Rsa

namespace RouterSeed

-- =========================================================== curves

/-- The curves that keys can lie on. -/
inductive NamedCurve where
  | p256
  | p384
  | p521
  deriving DecidableEq, Repr

namespace NamedCurve

/-- The curve itself. -/
def params : NamedCurve → Curve.Params
  | .p256 => Curve.p256
  | .p384 => Curve.p384
  | .p521 => Curve.p521

/-- The identifier of the curve. -/
def oid : NamedCurve → Der.Oid
  | .p256 => Der.Oid.ofArcs [1, 2, 840, 10045, 3, 1, 7]
  | .p384 => Der.Oid.ofArcs [1, 3, 132, 0, 34]
  | .p521 => Der.Oid.ofArcs [1, 3, 132, 0, 35]

/-- The curve with the given identifier. -/
def ofOid? (oid : Der.Oid) : Option NamedCurve :=
  [p256, p384, p521].find? fun curve => curve.oid = oid

end NamedCurve

-- ========================================================= families

/-- What kind of key it is. -/
inductive KeyFamily where
  | rsa
  | ecdsa (curve : NamedCurve)
  | dsa
  deriving DecidableEq, Repr

/-- The name of a family. -/
def KeyFamily.name : KeyFamily → String
  | .rsa => "RSA"
  | .ecdsa curve => "ECDSA-" ++ curve.params.name
  | .dsa => "DSA"

-- ====================================================== public keys

/-- A key to verify with. -/
inductive PublicKey where
  | rsa (key : Rsa.PublicKey)
  | ecdsa (curve : NamedCurve) (point : Curve.Point)
  | dsa (key : Dsa.PublicKey)
  deriving DecidableEq, Repr

/-- The family of a public key. -/
def PublicKey.family : PublicKey → KeyFamily
  | .rsa _ => .rsa
  | .ecdsa curve _ => .ecdsa curve
  | .dsa _ => .dsa

-- ===================================================== private keys

/-- A private scalar with the public point it belongs to. -/
structure EcdsaKey where
  curve : NamedCurve
  scalar : Nat
  point : Curve.Point
  deriving DecidableEq, Repr

/-- The key of a scalar between one and the order less one. -/
def EcdsaKey.ofScalar? (curve : NamedCurve) (scalar : Nat) : Option EcdsaKey :=
  if scalar = 0 ∨ curve.params.order ≤ scalar then none
  else (curve.params.multipleOfBase? scalar).map fun point => ⟨curve, scalar, point⟩

/-- A key to sign with. -/
inductive PrivateKey where
  | rsa (key : Rsa.PrivateKey)
  | ecdsa (key : EcdsaKey)
  | dsa (key : Dsa.PrivateKey)
  deriving DecidableEq, Repr

namespace PrivateKey

/-- The public half. -/
def publicKey : PrivateKey → PublicKey
  | .rsa key => .rsa key.publicKey
  | .ecdsa key => .ecdsa key.curve key.point
  | .dsa key => .dsa key.publicKey

/-- The family of a private key. -/
def family : PrivateKey → KeyFamily
  | .rsa _ => .rsa
  | .ecdsa key => .ecdsa key.curve
  | .dsa _ => .dsa

@[simp] theorem family_publicKey (key : PrivateKey) : key.publicKey.family = key.family := by
  cases key <;> rfl

end PrivateKey

end RouterSeed
