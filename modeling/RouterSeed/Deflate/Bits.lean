/-
Bits out of bytes, the lowest bit of each byte first.

The reader holds the bits of the byte it is in and the bytes after it,
so that "skip to the next byte" is dropping the former. Numbers are read
with their lowest bit first.
-/
import RouterSeed.Bytes

namespace RouterSeed.Deflate

/-- Bits still to be read: the rest of one byte, and whole bytes. -/
structure Bits where
  current : List Bool
  rest : Bytes
  deriving DecidableEq, Repr

namespace Bits

/-- The bits of a byte. -/
def ofByte (b : UInt8) : List Bool := (List.range 8).map fun i => b.toNat.testBit i

/-- All bits of the given bytes. -/
def ofBytes (bytes : Bytes) : Bits := ⟨[], bytes⟩

/-- How many bits are left. -/
def size (b : Bits) : Nat := b.current.length + 8 * b.rest.length

/-- The next bit. -/
def next? (b : Bits) : Option (Bool × Bits) :=
  match b.current with
  | bit :: current => some (bit, { b with current })
  | [] =>
    match b.rest with
    | [] => none
    | byte :: rest =>
      match ofByte byte with
      | bit :: current => some (bit, ⟨current, rest⟩)
      | [] => none

/-- The number in the next `width` bits. -/
def number? : (width : Nat) → Bits → Option (Nat × Bits)
  | 0, b => some (0, b)
  | width + 1, b => do
    let (bit, b) ← b.next?
    let (high, b) ← number? width b
    some (bit.toNat + 2 * high, b)

/-- The next `count` whole bytes; bits left of the current byte are
skipped. -/
def bytes? (count : Nat) (b : Bits) : Option (Bytes × Bits) :=
  if b.rest.length < count then none
  else some (b.rest.take count, ⟨[], b.rest.drop count⟩)

end Bits

end RouterSeed.Deflate
