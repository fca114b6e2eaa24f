/-
Inflating: reading the deflate format.

The input is a series of blocks, the last one marked. A block is stored
as it is, or it is a series of symbols that are either bytes or copies
of earlier output, in a fixed code or in one that the block brings with
it. Input that ends before the last block does, or that has no meaning,
gives nothing at all; input after the last block is not looked at.

Before the first byte of output lie zeros, so a copy may reach back
beyond it.
-/
import RouterSeed.Deflate.Huffman

namespace RouterSeed.Deflate

-- =========================================================== tables

/-- Base and number of extra bits of the copy lengths, from symbol 257 on. -/
def lengthTable : Array (Nat × Nat) :=
  #[(3, 0), (4, 0), (5, 0), (6, 0), (7, 0), (8, 0), (9, 0), (10, 0), (11, 1), (13, 1), (15, 1),
    (17, 1), (19, 2), (23, 2), (27, 2), (31, 2), (35, 3), (43, 3), (51, 3), (59, 3), (67, 4),
    (83, 4), (99, 4), (115, 4), (131, 5), (163, 5), (195, 5), (227, 5), (258, 0)]

/-- Base and number of extra bits of the copy distances. -/
def distanceTable : Array (Nat × Nat) :=
  #[(1, 0), (2, 0), (3, 0), (4, 0), (5, 1), (7, 1), (9, 2), (13, 2), (17, 3), (25, 3), (33, 4),
    (49, 4), (65, 5), (97, 5), (129, 6), (193, 6), (257, 7), (385, 7), (513, 8), (769, 8),
    (1025, 9), (1537, 9), (2049, 10), (3073, 10), (4097, 11), (6145, 11), (8193, 12),
    (12289, 12), (16385, 13), (24577, 13)]

/-- The order in which a block gives the lengths of its length code. -/
def lengthCodeOrder : List Nat :=
  [16, 17, 18, 0, 8, 7, 9, 6, 10, 5, 11, 4, 12, 3, 13, 2, 14, 1, 15]

/-- The symbol that ends a block. -/
def endOfBlock : Nat := 256

/-- The two codes of a block: for bytes and copy lengths, and for copy
distances. -/
structure BlockCodes where
  literals : Huffman
  distances : Huffman

/-- The codes of a block that does not bring its own. -/
def fixedCodes? : Option BlockCodes := do
  let literals ← Huffman.ofLengths?
    (List.replicate 144 8 ++ List.replicate 112 9 ++ List.replicate 24 7 ++ List.replicate 8 8)
  let distances ← Huffman.ofLengths? (List.replicate 32 5)
  some ⟨literals, distances⟩

-- =========================================================== copies

/-- Append `length` bytes of earlier output, starting `distance` back. -/
def copy (output : Array UInt8) (distance : Nat) : (length : Nat) → Array UInt8
  | 0 => output
  | length + 1 =>
    let byte := if output.size < distance then 0 else output.getD (output.size - distance) 0
    copy (output.push byte) distance length

/-- A number with extra bits: a base from a table, and what the bits add. -/
def extended? (table : Array (Nat × Nat)) (index : Nat) (b : Bits) : Option (Nat × Bits) := do
  let (base, extra) ← table[index]?
  let (more, b) ← b.number? extra
  some (base + more, b)

/-- Read the symbols of a block. Every symbol takes a bit at least. -/
def symbols? (codes : BlockCodes) : (fuel : Nat) → Bits → Array UInt8 →
    Option (Array UInt8 × Bits)
  | 0, _, _ => none
  | fuel + 1, b, output => do
    let (symbol, b) ← codes.literals.symbol? b
    if symbol < endOfBlock then symbols? codes fuel b (output.push (UInt8.ofNat symbol))
    else if symbol = endOfBlock then some (output, b)
    else
      let (length, b) ← extended? lengthTable (symbol - 257) b
      let (symbol, b) ← codes.distances.symbol? b
      let (distance, b) ← extended? distanceTable symbol b
      symbols? codes fuel b (copy output distance length)

-- ==================================================== code lengths

/-- Read `count` numbers of three bits. -/
def threeBits? : (count : Nat) → Bits → Option (List Nat × Bits)
  | 0, b => some ([], b)
  | count + 1, b => do
    let (n, b) ← b.number? 3
    let (more, b) ← threeBits? count b
    some (n :: more, b)

/-- The length that the length code gives a symbol. -/
def lengthOf (given : List Nat) (symbol : Nat) : Nat :=
  match (lengthCodeOrder.zip given).find? fun entry => entry.1 = symbol with
  | some entry => entry.2
  | none => 0

/-- Read `wanted` code lengths; `got` are those before, the latest first.
Repetitions may not run past the last one. -/
def codeLengths? (code : Huffman) : (fuel wanted : Nat) → (got : List Nat) → Bits →
    Option (List Nat × Bits)
  | 0, _, _, _ => none
  | fuel + 1, wanted, got, b =>
    if wanted = 0 then some (got.reverse, b)
    else do
      let (symbol, b) ← code.symbol? b
      let repeated (value times : Nat) (b : Bits) : Option (List Nat × Bits) :=
        if wanted < times then none
        else codeLengths? code fuel (wanted - times) (List.replicate times value ++ got) b
      if symbol < 16 then repeated symbol 1 b
      else if symbol = 16 then
        let last ← got.head?
        let (more, b) ← b.number? 2
        repeated last (3 + more) b
      else if symbol = 17 then
        let (more, b) ← b.number? 3
        repeated 0 (3 + more) b
      else
        let (more, b) ← b.number? 7
        repeated 0 (11 + more) b

/-- The most symbols that a block may describe. -/
def maxLiterals : Nat := 286

/-- The most distances that a block may describe. -/
def maxDistances : Nat := 30

/-- Read the codes that a block brings with it. -/
def ownCodes? (b : Bits) : Option (BlockCodes × Bits) := do
  let (literals, b) ← b.number? 5
  let (distances, b) ← b.number? 5
  let (given, b) ← b.number? 4
  let literals := literals + 257
  let distances := distances + 1
  if maxLiterals < literals ∨ maxDistances < distances then none
  else
    let (given, b) ← threeBits? (given + 4) b
    let code ← Huffman.ofLengths? ((List.range 19).map (lengthOf given))
    let (lengths, b) ← codeLengths? code (literals + distances + 1) (literals + distances) [] b
    let literalCode ← Huffman.ofLengths? (lengths.take literals)
    let distanceCode ← Huffman.ofLengths? (lengths.drop literals)
    some (⟨literalCode, distanceCode⟩, b)

-- =========================================================== blocks

/-- Read a stored block: its length, the complement of that, the bytes. -/
def stored? (b : Bits) (output : Array UInt8) : Option (Array UInt8 × Bits) := do
  let (lengths, b) ← b.bytes? 4
  let length := Bytes.toNatLE (lengths.take 2)
  if length + Bytes.toNatLE (lengths.drop 2) ≠ 65535 then none
  else
    let (data, b) ← b.bytes? length
    some (output ++ data.toArray, b)

/-- Read blocks up to the last one. Every block takes three bits at
least. -/
def blocks? : (fuel : Nat) → Bits → Array UInt8 → Option (Array UInt8)
  | 0, _, _ => none
  | fuel + 1, b, output => do
    let (last, b) ← b.next?
    let (kind, b) ← b.number? 2
    let (output, b) ←
      match kind with
      | 0 => stored? b output
      | 1 => do symbols? (← fixedCodes?) b.size b output
      | 2 => do
        let (codes, b) ← ownCodes? b
        symbols? codes b.size b output
      | _ => none
    if last then some output else blocks? fuel b output

/-- The data that a compressed byte string stands for. -/
def inflate? (input : Bytes) : Option Bytes :=
  (blocks? (8 * input.length) (Bits.ofBytes input) #[]).map Array.toList

end RouterSeed.Deflate
