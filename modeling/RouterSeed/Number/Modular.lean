/-
Arithmetic modulo a number.

Powers by repeated squaring, inverses by the extended Euclidean
algorithm, and square roots for primes that leave remainder three when
divided by four, which is all that RSA, DSA and the curves in use need.
-/
import RouterSeed.Number.Power

namespace RouterSeed.Number

-- =========================================================== powers

/-- `base ^ exponent` modulo `modulus`, in as many steps as the exponent
has bits. -/
def powMod (base exponent modulus : Nat) : Nat :=
  if exponent = 0 then 1 % modulus
  else
    let half := powMod (base * base % modulus) (exponent / 2) modulus
    if exponent % 2 = 1 then base * half % modulus else half
termination_by exponent

/-- Repeated squaring computes the power. -/
theorem powMod_eq (base exponent modulus : Nat) :
    powMod base exponent modulus = base ^ exponent % modulus := by
  induction exponent using Nat.strongRecOn generalizing base with
  | ind e ih =>
    unfold powMod
    by_cases he : e = 0
    · simp [he]
    · have square : (base * base % modulus) ^ (e / 2) % modulus = base ^ (2 * (e / 2)) % modulus := by
        rw [← Nat.pow_mod, Nat.pow_mul, Nat.pow_two]
      simp only [he, if_false, ih (e / 2) (by omega), square]
      by_cases odd : e % 2 = 1
      · have split : e = 2 * (e / 2) + 1 := by omega
        simp only [odd, if_true]
        rw [Nat.mul_mod_mod, Nat.mul_comm, ← Nat.pow_succ, Nat.succ_eq_add_one, ← split]
      · have split : 2 * (e / 2) = e := by omega
        simp only [odd, if_false, split]

-- ========================================================= inverses

/-- The last nonzero remainder of the Euclidean algorithm, and the factor
of the second argument in it; `s` and `t` are the factors of the two
current remainders. -/
def euclid (x y : Nat) (s t : Int) : Nat × Int :=
  if y = 0 then (x, s) else euclid y (x % y) t (s - (x / y : Nat) * t)
termination_by y
decreasing_by exact Nat.mod_lt _ (Nat.pos_of_ne_zero ‹_›)

/-- The inverse of `a` modulo `m`, if there is one. -/
def inverse? (a m : Nat) : Option Nat :=
  let (gcd, factor) := euclid m (a % m) 0 1
  if gcd = 1 then some (factor % (m : Int)).toNat else none

-- ===================================================== square roots

/-- A square root of `a` modulo a prime `p` that is three modulo four, if
`a` has one. -/
def sqrt? (a p : Nat) : Option Nat :=
  let root := powMod a ((p + 1) / 4) p
  if root * root % p = a % p then some root else none

-- ============================================================= size

/-- The number of binary digits. -/
def bitLength (n : Nat) : Nat := if n = 0 then 0 else n.log2 + 1

/-- The number of bytes of a number, which is none for zero. -/
def byteLength (n : Nat) : Nat := (bitLength n + 7) / 8

theorem lt_two_pow_bitLength (n : Nat) : n < 2 ^ bitLength n := by
  unfold bitLength
  split
  next hzero => rw [hzero]; exact Nat.one_pos
  next => exact Nat.lt_log2_self

/-- A number fits the bytes that it is said to have. -/
theorem lt_pow_byteLength (n : Nat) : n < 256 ^ byteLength n := by
  have hbits : 2 ^ bitLength n ≤ 2 ^ (8 * byteLength n) := by
    apply Nat.pow_le_pow_right (by decide)
    unfold byteLength
    omega
  have hbytes : 256 ^ byteLength n = 2 ^ (8 * byteLength n) := by
    rw [Nat.pow_mul]
  rw [hbytes]
  exact Nat.lt_of_lt_of_le (lt_two_pow_bitLength n) hbits

end RouterSeed.Number
