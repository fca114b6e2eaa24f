/-
Canonical Huffman codes, given by the length of each symbol's code.

Codes of one length are consecutive numbers in the order of their
symbols, and follow the codes of the shorter lengths. A set of lengths
is usable if it fills the code space exactly; a set of at most one code
is usable too, though it leaves most of the space empty.
-/
import RouterSeed.Deflate.Bits
import RouterSeed.Number.Power

namespace RouterSeed.Deflate

/-- The longest code. -/
def maxCodeLength : Nat := 15

/-- A code: how many symbols have a code of each length from one on, and
the symbols in the order of their codes. -/
structure Huffman where
  counts : List Nat
  symbols : Array Nat
  deriving Repr

namespace Huffman

/-- The symbols whose code has the given length. -/
def symbolsOfLength (lengths : List Nat) (length : Nat) : List Nat :=
  (lengths.zipIdx.filter fun entry => entry.1 = length).map (·.2)

/-- The share of the code space that the codes take, in units of the
longest code. -/
def space (counts : List Nat) : Nat :=
  counts.foldl (fun total count => total * 2 + count) 0

/-- The number of codes. -/
def codeCount (counts : List Nat) : Nat := counts.foldl (· + ·) 0

/-- The code with the given lengths; zero stands for no code. -/
def ofLengths? (lengths : List Nat) : Option Huffman :=
  let groups := (List.range maxCodeLength).map fun i => symbolsOfLength lengths (i + 1)
  let counts := groups.map List.length
  if space counts = 2 ^ maxCodeLength ∨ codeCount counts ≤ 1 then
    some ⟨counts, groups.flatten.toArray⟩
  else none

/-- Follow the bits of a code. `code` is its value so far, `first` the
first code of the length reached, and `index` the number of symbols with
shorter codes. -/
def follow (symbols : Array Nat) : (counts : List Nat) → (code first index : Nat) → Bits →
    Option (Nat × Bits)
  | [], _, _, _, _ => none
  | count :: counts, code, first, index, b => do
    let (bit, b) ← b.next?
    let code := 2 * code + bit.toNat
    let first := 2 * first
    if code < first + count then
      let symbol ← symbols[index + (code - first)]?
      some (symbol, b)
    else follow symbols counts code (first + count) (index + count) b

/-- The next symbol. -/
def symbol? (h : Huffman) (b : Bits) : Option (Nat × Bits) := follow h.symbols h.counts 0 0 0 b

end Huffman

end RouterSeed.Deflate
