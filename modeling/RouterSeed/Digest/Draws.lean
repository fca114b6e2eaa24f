/-
Numbers drawn from a seed.

A seed of random bytes is stretched by hashing it together with a count,
so that everything the library takes as random numbers is a function of
one seed. Draws with different labels or numbers have nothing to do with
each other.
-/
import RouterSeed.Digest.Sha2

namespace RouterSeed.Digest

/-- The bytes of one draw, in blocks of 64. -/
def drawBytes (seed : Bytes) (label number : Nat) (blocks : Nat) : Bytes :=
  (List.range blocks).flatMap fun block =>
    sha512 (seed ++ Bytes.ofNat 8 label ++ Bytes.ofNat 8 number ++ Bytes.ofNat 8 block)

/-- How many blocks a draw has: enough for a prime of a large key. -/
def blocksPerDraw : Nat := 16

/-- The number of one draw. -/
def draw (seed : Bytes) (label number : Nat) : Nat :=
  Bytes.toNat (drawBytes seed label number blocksPerDraw)

end RouterSeed.Digest
