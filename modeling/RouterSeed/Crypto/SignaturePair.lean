/-
The pair of numbers that is a DSA or an elliptic curve signature, and
its encoding: a sequence of two integers, both positive. The encoding is
as short as the numbers are, so the length of a signature varies.
-/
import RouterSeed.Der.Basic

namespace RouterSeed

/-- A signature of two numbers. -/
structure SignaturePair where
  r : Nat
  s : Nat
  deriving DecidableEq, Repr

namespace SignaturePair

/-- The bytes of the pair. -/
def encode (p : SignaturePair) : Bytes :=
  Der.sequence [Der.encodeUnsigned p.r, Der.encodeUnsigned p.s]

/-- Read a pair; neither number may be zero. -/
def decode? (bytes : Bytes) : Option SignaturePair := do
  let p ← Der.whole (Der.within Der.sequenceTag do
    let r ← Der.unsigned
    let s ← Der.unsigned
    pure (⟨r, s⟩ : SignaturePair)) bytes
  if p.r = 0 ∨ p.s = 0 then none else some p

end SignaturePair

end RouterSeed
