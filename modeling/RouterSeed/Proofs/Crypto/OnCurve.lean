/-
Multiples of the base point lie on the curve.

A public key that is computed from its scalar is never looked at again
before it goes into a certificate, and whoever reads the certificate
refuses a point off the curve. So the point has to be on the curve for
every scalar. The equation of projective coordinates,

    y² = x³ + a·x·z⁴ + b·z⁶   modulo the field prime,

is kept by doubling and by adding, because what the formulas compute
differs from a point of the curve by a multiple of the equations that go
in. That is algebra in any commutative ring: nothing here needs the field
prime to be prime. The way back to a pair of coordinates divides by a
number that `inverse?` has found to be invertible.

Consumed by the certificate proofs.
-/
import Mathlib.Data.ZMod.Basic
import Mathlib.Tactic.LinearCombination
import RouterSeed.Key.Basic

namespace RouterSeed

-- ============================================================= inverses

namespace Number

/-- The algorithm keeps its remainders multiples of the second argument
it was started with. -/
private theorem cast_euclid {m : Nat} {a : ZMod m} (x y : Nat) (s t : Int)
    (hx : (x : ZMod m) = s * a)
    (hy : (y : ZMod m) = t * a) : ((euclid x y s t).1 : ZMod m) = (euclid x y s t).2 * a := by
  induction x, y, s, t using euclid.induct with
  | case1 x s t =>
    rw [euclid, if_pos rfl]
    exact hx
  | case2 x y s t hne ih =>
    rw [euclid, if_neg hne]
    apply ih hy
    have hdivision : ((y * (x / y) + x % y : Nat) : ZMod m) = x := by rw [Nat.div_add_mod]
    generalize x / y = quotient at hdivision ⊢
    push_cast at hdivision ⊢
    linear_combination hdivision + hx - (quotient : ZMod m) * hy

/-- What is taken for an inverse is one, also where the modulus is not
prime. -/
private theorem mul_of_inverse? {a m b : Nat} (hm : 0 < m) (h : inverse? a m = some b) :
    (b * a : ZMod m) = 1 := by
  unfold inverse? at h
  have hkept := cast_euclid (m := m) (a := (a : ZMod m)) m (a % m) 0 1 (by simp) (by simp)
  generalize euclid m (a % m) 0 1 = found at h hkept
  obtain ⟨gcd, factor⟩ := found
  dsimp only at h hkept
  split at h
  next hgcd =>
    cases h
    have hnonneg : 0 ≤ factor % (m : Int) := Int.emod_nonneg _ (by omega)
    have hcast : ((factor % (m : Int)).toNat : ZMod m) = factor := by
      rw [← Int.cast_natCast, Int.toNat_of_nonneg hnonneg, ZMod.intCast_mod]
    rw [hcast, ← hkept, hgcd, Nat.cast_one]
  next => cases h

end Number

-- ============================================================ equation

namespace Curve

open Number Projective

variable {c : Params} {p q sum : Projective}

/-- The equation in projective coordinates, modulo the field prime. -/
def OnCurve (c : Params) (p : Projective) : Prop :=
  (p.y : ZMod c.prime) ^ 2 = (p.x : ZMod c.prime) ^ 3 + c.a * p.x * (p.z : ZMod c.prime) ^ 4
    + c.b * (p.z : ZMod c.prime) ^ 6

/-- The point at infinity satisfies the equation. -/
private theorem onCurve_infinity (c : Params) : OnCurve c infinity := by
  simp [OnCurve, infinity]

/-- Subtraction that does not go below zero is subtraction modulo the prime. -/
private theorem cast_sub (hprime : 0 < c.prime) (a b : Nat) :
    (sub c a b : ZMod c.prime) = (a : ZMod c.prime) - b := by
  have hle : b % c.prime ≤ a + c.prime := by
    have := Nat.mod_lt b hprime
    omega
  unfold sub
  rw [ZMod.natCast_mod, Nat.cast_sub hle, Nat.cast_add, ZMod.natCast_self, ZMod.natCast_mod,
    add_zero]

/-- Doubling stays on the curve. -/
private theorem onCurve_double (hprime : 0 < c.prime) (h : OnCurve c p) : OnCurve c
    (double c p) := by
  unfold double
  split
  · exact onCurve_infinity c
  · unfold OnCurve at h ⊢
    dsimp only
    simp only [cast_sub hprime, Nat.cast_mul, Nat.cast_add, ZMod.natCast_mod, Nat.cast_ofNat]
    -- what is left over is 64 y⁶ times the equation of the point
    linear_combination 64 * (p.y : ZMod c.prime) ^ 6 * h

/-- The third point on the line through two points of a curve, with the
denominators cleared. -/
private theorem chord_equation {R : Type} [CommRing R] {a b u v s t h r x : R}
    (hfirst : s ^ 2 = u ^ 3 + a * u + b) (hsecond : t ^ 2 = v ^ 3 + a * v + b) (hh : h = v - u)
    (hr : r = t - s) (hx : x = r ^ 2 - (h ^ 3 + 2 * (u * h ^ 2))) :
    (r * (u * h ^ 2 - x) - s * h ^ 3) ^ 2 = x ^ 3 + a * x * h ^ 4 + b * h ^ 6 := by
  subst hh hr hx
  linear_combination
    (v - u) ^ 3 * ((t - s) ^ 2 - (v - u) ^ 3 - 3 * u * (v - u) ^ 2) * (hsecond - hfirst)
      + (v - u) ^ 6 * hfirst

/-- Addition stays on the curve. Where the two points have one x, it is a
doubling or comes to infinity. -/
theorem onCurve_add (hprime : 0 < c.prime) (hp : OnCurve c p) (hq : OnCurve c q) :
    OnCurve c (add c p q) := by
  unfold add
  split
  · exact hq
  split
  · exact hp
  dsimp only
  split
  · split
    · exact onCurve_double hprime hp
    · exact onCurve_infinity c
  · unfold OnCurve at hp hq ⊢
    dsimp only
    simp only [cast_sub hprime, Nat.cast_mul, Nat.cast_add, ZMod.natCast_mod, Nat.cast_ofNat]
    -- both points with the common denominator z₁z₂
    have hline := chord_equation (a := (c.a : ZMod c.prime) * (p.z * q.z) ^ 4)
      (b := (c.b : ZMod c.prime) * (p.z * q.z) ^ 6) (u := p.x * q.z ^ 2) (v := q.x * p.z ^ 2)
      (s := p.y * q.z ^ 3) (t := q.y * p.z ^ 3)
      (by linear_combination (q.z : ZMod c.prime) ^ 6 * hp)
      (by linear_combination (p.z : ZMod c.prime) ^ 6 * hq) rfl rfl rfl
    linear_combination hline

/-- Double and add stays there, since each step is one of these. -/
private theorem onCurve_addMultiple (hprime : 0 < c.prime) (k : Nat) (hp : OnCurve c p)
    (hsum : OnCurve c sum) : OnCurve c (addMultiple c k p sum) := by
  induction k, p, sum using addMultiple.induct (c := c) with
  | case1 p sum =>
    rw [addMultiple, if_pos rfl]
    exact hsum
  | case2 k p sum hne ih =>
    rw [addMultiple, if_neg hne]
    apply ih (onCurve_double hprime hp)
    split
    · exact onCurve_add hprime hsum hp
    · exact hsum

-- =============================================================== points

/-- A point of the curve, taken as projective. -/
private theorem onCurve_ofPoint {point : Point} (h : c.contains point = true) :
    OnCurve c (ofPoint point) := by
  unfold Params.contains Params.cubic at h
  rw [Bool.and_eq_true, Bool.and_eq_true, beq_iff_eq] at h
  have hequation := (ZMod.natCast_eq_natCast_iff' _ _ c.prime).mpr h.2
  unfold OnCurve ofPoint
  push_cast [ZMod.natCast_mod] at hequation ⊢
  linear_combination hequation

/-- Back in coordinates the equation is that of the curve: the inverse of z
cancels. -/
private theorem contains_of_toPoint? (hprime : 0 < c.prime) (hp : OnCurve c p) {point : Point}
    (h : p.toPoint? c = some point) : c.contains point = true := by
  unfold toPoint? at h
  obtain ⟨inverse, hinverse, hpoint⟩ := Option.bind_eq_some_iff.mp h
  cases hpoint
  have hunit := mul_of_inverse? hprime hinverse
  unfold Params.contains Params.cubic
  rw [Bool.and_eq_true, Bool.and_eq_true, beq_iff_eq]
  refine ⟨⟨decide_eq_true (Nat.mod_lt _ hprime), decide_eq_true (Nat.mod_lt _ hprime)⟩, ?_⟩
  rw [← Nat.mod_mod _ c.prime]
  apply (ZMod.natCast_eq_natCast_iff' _ _ c.prime).mp
  unfold OnCurve at hp
  push_cast [ZMod.natCast_mod] at hunit ⊢
  generalize (inverse : ZMod c.prime) = i at hunit ⊢
  have hfourth : (i * p.z) ^ 4 = 1 := by rw [hunit, one_pow]
  have hsixth : (i * p.z) ^ 6 = 1 := by rw [hunit, one_pow]
  linear_combination i ^ 6 * hp + c.a * p.x * i ^ 2 * hfourth + c.b * hsixth

/-- Multiples of the base are points of the curve. -/
theorem contains_of_multipleOfBase? (hprime : 0 < c.prime) (hbase : c.contains c.base = true)
    {k : Nat} {point : Point} (h : c.multipleOfBase? k = some point) :
    c.contains point = true :=
  contains_of_toPoint? hprime
    (onCurve_addMultiple hprime k (onCurve_ofPoint hbase) (onCurve_infinity c)) h

/-- A point of the curve is read back from its written form. -/
theorem Params.decode?_encode (hwidth : c.prime ≤ 256 ^ c.width) {point : Point}
    (h : c.contains point = true) : c.decode? (c.encode point) = some point := by
  have hcoordinates := h
  unfold Params.contains at hcoordinates
  rw [Bool.and_eq_true, Bool.and_eq_true] at hcoordinates
  -- the coordinates of a point are below the prime
  have hx : point.x < 256 ^ c.width := by
    exact Nat.lt_of_lt_of_le (of_decide_eq_true hcoordinates.1.1) hwidth
  have hy : point.y < 256 ^ c.width := by
    exact Nat.lt_of_lt_of_le (of_decide_eq_true hcoordinates.1.2) hwidth
  have htake : (Bytes.ofNat c.width point.x ++ Bytes.ofNat c.width point.y).take c.width
      = Bytes.ofNat c.width point.x := List.take_left' (Bytes.length_ofNat _ _)
  have hdrop : (Bytes.ofNat c.width point.x ++ Bytes.ofNat c.width point.y).drop c.width
      = Bytes.ofNat c.width point.y := List.drop_left' (Bytes.length_ofNat _ _)
  have hlength : (Bytes.ofNat c.width point.x ++ Bytes.ofNat c.width point.y).length
      = 2 * c.width := by
    rw [List.length_append, Bytes.length_ofNat, Bytes.length_ofNat]
    omega
  unfold Params.encode Params.decode?
  dsimp only
  rw [if_pos ⟨rfl, hlength⟩, htake, hdrop, Bytes.toNat_ofNat, Bytes.toNat_ofNat,
    Nat.mod_eq_of_lt hx, Nat.mod_eq_of_lt hy, if_pos h]

end Curve

private theorem NamedCurve.prime_pos (curve : NamedCurve) : 0 < curve.params.prime := by
  cases curve <;> decide

/-- Coordinates fit into the width of the curve. -/
theorem NamedCurve.prime_le (curve : NamedCurve) :
    curve.params.prime ≤ 256 ^ curve.params.width := by
  cases curve <;> decide

private theorem NamedCurve.contains_base (curve : NamedCurve) :
    curve.params.contains curve.params.base = true := by
  cases curve <;> decide +kernel

/-- So the public point of a scalar is one that a certificate can carry. -/
theorem EcdsaKey.contains_of_ofScalar? {curve : NamedCurve} {scalar : Nat} {key : EcdsaKey}
    (h : ofScalar? curve scalar = some key) : key.curve.params.contains key.point = true := by
  unfold ofScalar? at h
  split at h
  · cases h
  · obtain ⟨point, hpoint, rfl⟩ := Option.map_eq_some_iff.mp h
    exact Curve.contains_of_multipleOfBase? curve.prime_pos curve.contains_base hpoint

end RouterSeed
