/-
Probable primes, for the generation of RSA keys.

Randomness comes in as a sequence of draws, so that what is generated is
a function of them. A candidate has its top two bits set, which makes
the product of two primes exactly as long as both together, and its
lowest bit set. It passes if no small prime divides it and none of the
first primes is a witness against it in the strong test.
-/
import RouterSeed.Number.Modular

namespace RouterSeed.Number

/-- The primes tried as divisors and used as bases of the strong test. -/
def smallPrimes : List Nat :=
  [2, 3, 5, 7, 11, 13, 17, 19, 23, 29, 31, 37, 41, 43, 47, 53, 59, 61, 67, 71, 73, 79, 83, 89, 97,
    101, 103, 107, 109, 113, 127, 131, 137, 139, 149, 151, 157, 163, 167, 173, 179, 181, 191, 193,
    197, 199, 211, 223, 227, 229, 233, 239, 241, 251]

/-- Split `n` into an odd number and the exponent of two. -/
def oddPart (n : Nat) : Nat × Nat :=
  if n = 0 ∨ n % 2 = 1 then (n, 0)
  else
    let (odd, twos) := oddPart (n / 2)
    (odd, twos + 1)
termination_by n

/-- Whether `n - 1` turns up among the first `squarings` squarings of `x`. -/
def reachesMinusOne (n : Nat) : (squarings x : Nat) → Bool
  | 0, _ => false
  | squarings + 1, x => x = n - 1 || reachesMinusOne n squarings (x * x % n)

/-- `n` passes the strong test to the given base. -/
def passesStrongTest (n base : Nat) : Bool :=
  let (odd, twos) := oddPart (n - 1)
  let x := powMod base odd n
  x = 1 || reachesMinusOne n twos x

/-- `n` is very probably prime. -/
def isProbablePrime (n : Nat) : Bool :=
  if n ≤ 251 then smallPrimes.contains n
  else smallPrimes.all (fun p => n % p ≠ 0) && (smallPrimes.take 24).all (passesStrongTest n)

/-- A number of exactly `bits` bits with the two highest and the lowest
bit set, from a draw. -/
def primeCandidate (bits draw : Nat) : Nat :=
  if bits < 2 then 0
  else draw % 2 ^ bits ||| 2 ^ (bits - 1) ||| 2 ^ (bits - 2) ||| 1

/-- The first probable prime of `bits` bits among the draws from number
`start` on, and the number of the draw after it. -/
def findPrime? (bits : Nat) (draws : Nat → Nat) : (tries start : Nat) → Option (Nat × Nat)
  | 0, _ => none
  | tries + 1, start =>
    let candidate := primeCandidate bits (draws start)
    if isProbablePrime candidate then some (candidate, start + 1)
    else findPrime? bits draws tries (start + 1)

end RouterSeed.Number
