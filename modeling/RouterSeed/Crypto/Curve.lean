/-
The three prime curves that su3 signatures use.

A point is either the point at infinity or a pair of coordinates below
the field prime that satisfies `y² = x³ + ax + b`. Multiples are computed
in projective coordinates, where `(x, y, z)` stands for the pair
`(x/z², y/z³)`, so that a whole multiplication needs one inverse only.

The written form of a point is a form byte and coordinates of the
field's width: both of them, or the first and the parity of the second.
-/
import RouterSeed.Bytes
import RouterSeed.Number.Modular

namespace RouterSeed.Curve

open Number

/-- A curve over a prime field with a base point of prime order. -/
structure Params where
  name : String
  prime : Nat
  a : Nat
  b : Nat
  order : Nat
  baseX : Nat
  baseY : Nat
  /-- The width of a coordinate in bytes. -/
  width : Nat
  deriving DecidableEq, Repr

def p256 : Params where
  name := "P256"
  prime := 0xffffffff00000001000000000000000000000000ffffffffffffffffffffffff
  a := 0xffffffff00000001000000000000000000000000fffffffffffffffffffffffc
  b := 0x5ac635d8aa3a93e7b3ebbd55769886bc651d06b0cc53b0f63bce3c3e27d2604b
  order := 0xffffffff00000000ffffffffffffffffbce6faada7179e84f3b9cac2fc632551
  baseX := 0x6b17d1f2e12c4247f8bce6e563a440f277037d812deb33a0f4a13945d898c296
  baseY := 0x4fe342e2fe1a7f9b8ee7eb4a7c0f9e162bce33576b315ececbb6406837bf51f5
  width := 32

def p384 : Params where
  name := "P384"
  prime := 0xfffffffffffffffffffffffffffffffffffffffffffffffffffffffffffffffeffffffff0000000000000000ffffffff
  a := 0xfffffffffffffffffffffffffffffffffffffffffffffffffffffffffffffffeffffffff0000000000000000fffffffc
  b := 0xb3312fa7e23ee7e4988e056be3f82d19181d9c6efe8141120314088f5013875ac656398d8a2ed19d2a85c8edd3ec2aef
  order := 0xffffffffffffffffffffffffffffffffffffffffffffffffc7634d81f4372ddf581a0db248b0a77aecec196accc52973
  baseX := 0xaa87ca22be8b05378eb1c71ef320ad746e1d3b628ba79b9859f741e082542a385502f25dbf55296c3a545e3872760ab7
  baseY := 0x3617de4a96262c6f5d9e98bf9292dc29f8f41dbd289a147ce9da3113b5f0b8c00a60b1ce1d7e819d7a431d7c90ea0e5f
  width := 48

def p521 : Params where
  name := "P521"
  prime := 0x01ffffffffffffffffffffffffffffffffffffffffffffffffffffffffffffffffffffffffffffffffffffffffffffffffffffffffffffffffffffffffffffffffff
  a := 0x01fffffffffffffffffffffffffffffffffffffffffffffffffffffffffffffffffffffffffffffffffffffffffffffffffffffffffffffffffffffffffffffffffc
  b := 0x0051953eb9618e1c9a1f929a21a0b68540eea2da725b99b315f3b8b489918ef109e156193951ec7e937b1652c0bd3bb1bf073573df883d2c34f1ef451fd46b503f00
  order := 0x01fffffffffffffffffffffffffffffffffffffffffffffffffffffffffffffffffa51868783bf2f966b7fcc0148f709a5d03bb5c9b8899c47aebb6fb71e91386409
  baseX := 0x00c6858e06b70404e9cd9e3ecb662395b4429c648139053fb521f828af606b4d3dbaa14b5e77efe75928fe1dc127a2ffa8de3348b3c1856a429bf97e7e31c2e5bd66
  baseY := 0x011839296a789a3bc0045c8a5fb42c7d1bd998f54449579b446817afbd17273e662c97ee72995ef42640c550b9013fad0761353c7086a272c24088be94769fd16650
  width := 66

-- =========================================================== points

/-- A point other than the point at infinity. -/
structure Point where
  x : Nat
  y : Nat
  deriving DecidableEq, Repr

/-- The right side of the curve equation. -/
def Params.cubic (c : Params) (x : Nat) : Nat := (x * x % c.prime * x + c.a * x + c.b) % c.prime

/-- The point satisfies the curve equation. -/
def Params.contains (c : Params) (p : Point) : Bool :=
  p.x < c.prime && p.y < c.prime && p.y * p.y % c.prime == c.cubic p.x

/-- The base point. -/
def Params.base (c : Params) : Point := ⟨c.baseX, c.baseY⟩

/-- A point in projective coordinates; `z = 0` is the point at infinity. -/
structure Projective where
  x : Nat
  y : Nat
  z : Nat
  deriving DecidableEq, Repr

namespace Projective

/-- The point at infinity. -/
def infinity : Projective := ⟨1, 1, 0⟩

/-- A point in projective coordinates. -/
def ofPoint (p : Point) : Projective := ⟨p.x, p.y, 1⟩

/-- The point itself, unless it is the one at infinity. -/
def toPoint? (c : Params) (p : Projective) : Option Point := do
  let inverse ← inverse? p.z c.prime
  let square := inverse * inverse % c.prime
  some ⟨p.x * square % c.prime, p.y * (square * inverse % c.prime) % c.prime⟩

/-- The difference of two residues. -/
def sub (c : Params) (a b : Nat) : Nat := (a + c.prime - b % c.prime) % c.prime

/-- The sum of a point with itself. -/
def double (c : Params) (p : Projective) : Projective :=
  if p.z = 0 ∨ p.y = 0 then infinity
  else
    let m := c.prime
    let yy := p.y * p.y % m
    let s := 4 * p.x * yy % m
    let zz := p.z * p.z % m
    let slope := (3 * p.x * p.x + c.a * (zz * zz % m)) % m
    let x := sub c (slope * slope) (2 * s)
    ⟨x, sub c (slope * sub c s x) (8 * yy * yy), 2 * p.y * p.z % m⟩

/-- The sum of two points. -/
def add (c : Params) (p q : Projective) : Projective :=
  if p.z = 0 then q
  else if q.z = 0 then p
  else
    let m := c.prime
    let pzz := p.z * p.z % m
    let qzz := q.z * q.z % m
    let u1 := p.x * qzz % m
    let u2 := q.x * pzz % m
    let s1 := p.y * qzz % m * q.z % m
    let s2 := q.y * pzz % m * p.z % m
    if u1 = u2 then if s1 = s2 then double c p else infinity
    else
      let h := sub c u2 u1
      let r := sub c s2 s1
      let hh := h * h % m
      let hhh := hh * h % m
      let v := u1 * hh % m
      let x := sub c (r * r) (hhh + 2 * v)
      ⟨x, sub c (r * sub c v x) (s1 * hhh), p.z * q.z % m * h % m⟩

/-- The sum of `k` copies of a point, added to `sum`. -/
def addMultiple (c : Params) (k : Nat) (p sum : Projective) : Projective :=
  if k = 0 then sum
  else addMultiple c (k / 2) (double c p) (if k % 2 = 1 then add c sum p else sum)
termination_by k

/-- The sum of `k` copies of a point. -/
def multiple (c : Params) (k : Nat) (p : Projective) : Projective := addMultiple c k p infinity

end Projective

/-- The point `k` times the base point, unless it is the one at infinity. -/
def Params.multipleOfBase? (c : Params) (k : Nat) : Option Point :=
  (Projective.multiple c k (Projective.ofPoint c.base)).toPoint? c

-- ===================================================== written form

/-- The written form with both coordinates. -/
def Params.encode (c : Params) (p : Point) : Bytes :=
  0x04 :: (Bytes.ofNat c.width p.x ++ Bytes.ofNat c.width p.y)

/-- The written form with one coordinate and the parity of the other. -/
def Params.encodeCompressed (c : Params) (p : Point) : Bytes :=
  (if p.y % 2 = 0 then 0x02 else 0x03) :: Bytes.ofNat c.width p.x

/-- The point with the given first coordinate whose second one has the
given parity. -/
def Params.decompress? (c : Params) (x parity : Nat) : Option Point := do
  if c.prime ≤ x then failure
  let y ← sqrt? (c.cubic x) c.prime
  some ⟨x, if y % 2 = parity then y else (c.prime - y) % c.prime⟩

/-- Read a point other than the one at infinity. Form byte five carries
the first coordinate alone and means the even one of the two points. -/
def Params.decode? (c : Params) : Bytes → Option Point
  | [] => none
  | form :: digits =>
    if form = 0x04 ∧ digits.length = 2 * c.width then
      let p : Point := ⟨Bytes.toNat (digits.take c.width), Bytes.toNat (digits.drop c.width)⟩
      if c.contains p then some p else none
    else if digits.length = c.width then
      let x := Bytes.toNat digits
      if form = 0x02 ∨ form = 0x05 then c.decompress? x 0
      else if form = 0x03 then c.decompress? x 1
      else none
    else none

end RouterSeed.Curve
