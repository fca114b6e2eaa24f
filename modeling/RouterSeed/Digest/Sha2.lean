/-
SHA-256, SHA-384 and SHA-512.

The message is followed by a one bit, zeros and its length in bits up to
a whole number of blocks; each block is stretched into one word per
round, and the rounds mix those words into eight state words. The two
word widths differ in the number of rounds, the rotations and the length
field, so each has its own `Round` below; SHA-384 is SHA-512 from
another start, cut to six words.

Round constants are the first bits of the fractional parts of the cube
roots of the first primes, start values those of the square roots.
-/
import RouterSeed.Bytes

namespace RouterSeed.Digest

/-- The bytes after the message: a one bit, zeros, and the length in bits
as a big-endian number of `field` bytes, up to a multiple of `block`. -/
def padding (block field length : Nat) : Bytes :=
  let zeros := (2 * block - 1 - field - length % block) % block
  0x80 :: (List.replicate zeros 0 ++ Bytes.ofNat field (8 * length))

/-- Cut `bytes` into pieces of `size` bytes, the last one shorter if need
be, and fold `f` over them. -/
def foldBlocks (size : Nat) (f : σ → Bytes → σ) (state : σ) (bytes : Bytes) : σ :=
  if _done : bytes = [] ∨ size = 0 then state
  else foldBlocks size f (f state (bytes.take size)) (bytes.drop size)
termination_by bytes.length
decreasing_by
  have : bytes.length ≠ 0 := by simpa using fun e => _done (Or.inl e)
  simp only [List.length_drop]
  omega

/-- The eight working words of a compression. -/
structure Words (α : Type) where
  a : α
  b : α
  c : α
  d : α
  e : α
  f : α
  g : α
  h : α
  deriving DecidableEq, Repr

namespace Words

/-- The words in order. -/
def toList (w : Words α) : List α := [w.a, w.b, w.c, w.d, w.e, w.f, w.g, w.h]

/-- Combine two states word by word. -/
def zipWith (op : α → α → α) (x y : Words α) : Words α :=
  ⟨op x.a y.a, op x.b y.b, op x.c y.c, op x.d y.d, op x.e y.e, op x.f y.f, op x.g y.g, op x.h y.h⟩

end Words

-- ========================================================== 32 bits

namespace Sha256

/-- Rotate right. -/
def rotate (x : UInt32) (n : UInt32) : UInt32 := (x >>> n) ||| (x <<< (32 - n))

/-- The round constants. -/
def constants : Array UInt32 :=
  #[0x428a2f98, 0x71374491, 0xb5c0fbcf, 0xe9b5dba5, 0x3956c25b, 0x59f111f1, 0x923f82a4,
    0xab1c5ed5, 0xd807aa98, 0x12835b01, 0x243185be, 0x550c7dc3, 0x72be5d74, 0x80deb1fe,
    0x9bdc06a7, 0xc19bf174, 0xe49b69c1, 0xefbe4786, 0x0fc19dc6, 0x240ca1cc, 0x2de92c6f,
    0x4a7484aa, 0x5cb0a9dc, 0x76f988da, 0x983e5152, 0xa831c66d, 0xb00327c8, 0xbf597fc7,
    0xc6e00bf3, 0xd5a79147, 0x06ca6351, 0x14292967, 0x27b70a85, 0x2e1b2138, 0x4d2c6dfc,
    0x53380d13, 0x650a7354, 0x766a0abb, 0x81c2c92e, 0x92722c85, 0xa2bfe8a1, 0xa81a664b,
    0xc24b8b70, 0xc76c51a3, 0xd192e819, 0xd6990624, 0xf40e3585, 0x106aa070, 0x19a4c116,
    0x1e376c08, 0x2748774c, 0x34b0bcb5, 0x391c0cb3, 0x4ed8aa4a, 0x5b9cca4f, 0x682e6ff3,
    0x748f82ee, 0x78a5636f, 0x84c87814, 0x8cc70208, 0x90befffa, 0xa4506ceb, 0xbef9a3f7,
    0xc67178f2]

/-- The start value. -/
def start : Words UInt32 :=
  ⟨0x6a09e667, 0xbb67ae85, 0x3c6ef372, 0xa54ff53a, 0x510e527f, 0x9b05688c, 0x1f83d9ab,
    0x5be0cd19⟩

/-- The words of a block of 64 bytes. -/
def wordsOf (block : Bytes) : Array UInt32 :=
  foldBlocks 4 (fun words piece => words.push (UInt32.ofNat (Bytes.toNat piece))) #[] block

/-- One further word of the message schedule. -/
def stretch (w : Array UInt32) : Array UInt32 :=
  let n := w.size
  let x := w.getD (n - 15) 0
  let y := w.getD (n - 2) 0
  let s0 := rotate x 7 ^^^ rotate x 18 ^^^ (x >>> 3)
  let s1 := rotate y 17 ^^^ rotate y 19 ^^^ (y >>> 10)
  w.push (w.getD (n - 16) 0 + s0 + w.getD (n - 7) 0 + s1)

/-- One round, with its constant and its word. -/
def round (s : Words UInt32) (k w : UInt32) : Words UInt32 :=
  let s1 := rotate s.e 6 ^^^ rotate s.e 11 ^^^ rotate s.e 25
  let choice := (s.e &&& s.f) ^^^ (~~~s.e &&& s.g)
  let t1 := s.h + s1 + choice + k + w
  let s0 := rotate s.a 2 ^^^ rotate s.a 13 ^^^ rotate s.a 22
  let majority := (s.a &&& s.b) ^^^ (s.a &&& s.c) ^^^ (s.b &&& s.c)
  ⟨t1 + (s0 + majority), s.a, s.b, s.c, s.d + t1, s.e, s.f, s.g⟩

/-- Mix one block into the state. -/
def compress (state : Words UInt32) (block : Bytes) : Words UInt32 :=
  let schedule := Nat.repeat stretch 48 (wordsOf block)
  let mixed := Nat.fold 64 (fun i _ s => round s (constants.getD i 0) (schedule.getD i 0)) state
  Words.zipWith (· + ·) state mixed

end Sha256

/-- The SHA-256 digest, 32 bytes. -/
def sha256 (message : Bytes) : Bytes :=
  let state := foldBlocks 64 Sha256.compress Sha256.start
    (message ++ padding 64 8 message.length)
  state.toList.flatMap fun w => Bytes.ofNat 4 w.toNat

-- ========================================================== 64 bits

namespace Sha512

/-- Rotate right. -/
def rotate (x : UInt64) (n : UInt64) : UInt64 := (x >>> n) ||| (x <<< (64 - n))

/-- The round constants. -/
def constants : Array UInt64 :=
  #[0x428a2f98d728ae22, 0x7137449123ef65cd, 0xb5c0fbcfec4d3b2f, 0xe9b5dba58189dbbc,
    0x3956c25bf348b538, 0x59f111f1b605d019, 0x923f82a4af194f9b, 0xab1c5ed5da6d8118,
    0xd807aa98a3030242, 0x12835b0145706fbe, 0x243185be4ee4b28c, 0x550c7dc3d5ffb4e2,
    0x72be5d74f27b896f, 0x80deb1fe3b1696b1, 0x9bdc06a725c71235, 0xc19bf174cf692694,
    0xe49b69c19ef14ad2, 0xefbe4786384f25e3, 0x0fc19dc68b8cd5b5, 0x240ca1cc77ac9c65,
    0x2de92c6f592b0275, 0x4a7484aa6ea6e483, 0x5cb0a9dcbd41fbd4, 0x76f988da831153b5,
    0x983e5152ee66dfab, 0xa831c66d2db43210, 0xb00327c898fb213f, 0xbf597fc7beef0ee4,
    0xc6e00bf33da88fc2, 0xd5a79147930aa725, 0x06ca6351e003826f, 0x142929670a0e6e70,
    0x27b70a8546d22ffc, 0x2e1b21385c26c926, 0x4d2c6dfc5ac42aed, 0x53380d139d95b3df,
    0x650a73548baf63de, 0x766a0abb3c77b2a8, 0x81c2c92e47edaee6, 0x92722c851482353b,
    0xa2bfe8a14cf10364, 0xa81a664bbc423001, 0xc24b8b70d0f89791, 0xc76c51a30654be30,
    0xd192e819d6ef5218, 0xd69906245565a910, 0xf40e35855771202a, 0x106aa07032bbd1b8,
    0x19a4c116b8d2d0c8, 0x1e376c085141ab53, 0x2748774cdf8eeb99, 0x34b0bcb5e19b48a8,
    0x391c0cb3c5c95a63, 0x4ed8aa4ae3418acb, 0x5b9cca4f7763e373, 0x682e6ff3d6b2b8a3,
    0x748f82ee5defb2fc, 0x78a5636f43172f60, 0x84c87814a1f0ab72, 0x8cc702081a6439ec,
    0x90befffa23631e28, 0xa4506cebde82bde9, 0xbef9a3f7b2c67915, 0xc67178f2e372532b,
    0xca273eceea26619c, 0xd186b8c721c0c207, 0xeada7dd6cde0eb1e, 0xf57d4f7fee6ed178,
    0x06f067aa72176fba, 0x0a637dc5a2c898a6, 0x113f9804bef90dae, 0x1b710b35131c471b,
    0x28db77f523047d84, 0x32caab7b40c72493, 0x3c9ebe0a15c9bebc, 0x431d67c49c100d4c,
    0x4cc5d4becb3e42b6, 0x597f299cfc657e2a, 0x5fcb6fab3ad6faec, 0x6c44198c4a475817]

/-- The start value of SHA-512. -/
def start : Words UInt64 :=
  ⟨0x6a09e667f3bcc908, 0xbb67ae8584caa73b, 0x3c6ef372fe94f82b, 0xa54ff53a5f1d36f1,
    0x510e527fade682d1, 0x9b05688c2b3e6c1f, 0x1f83d9abfb41bd6b, 0x5be0cd19137e2179⟩

/-- The start value of SHA-384. -/
def start384 : Words UInt64 :=
  ⟨0xcbbb9d5dc1059ed8, 0x629a292a367cd507, 0x9159015a3070dd17, 0x152fecd8f70e5939,
    0x67332667ffc00b31, 0x8eb44a8768581511, 0xdb0c2e0d64f98fa7, 0x47b5481dbefa4fa4⟩

/-- The words of a block of 128 bytes. -/
def wordsOf (block : Bytes) : Array UInt64 :=
  foldBlocks 8 (fun words piece => words.push (UInt64.ofNat (Bytes.toNat piece))) #[] block

/-- One further word of the message schedule. -/
def stretch (w : Array UInt64) : Array UInt64 :=
  let n := w.size
  let x := w.getD (n - 15) 0
  let y := w.getD (n - 2) 0
  let s0 := rotate x 1 ^^^ rotate x 8 ^^^ (x >>> 7)
  let s1 := rotate y 19 ^^^ rotate y 61 ^^^ (y >>> 6)
  w.push (w.getD (n - 16) 0 + s0 + w.getD (n - 7) 0 + s1)

/-- One round, with its constant and its word. -/
def round (s : Words UInt64) (k w : UInt64) : Words UInt64 :=
  let s1 := rotate s.e 14 ^^^ rotate s.e 18 ^^^ rotate s.e 41
  let choice := (s.e &&& s.f) ^^^ (~~~s.e &&& s.g)
  let t1 := s.h + s1 + choice + k + w
  let s0 := rotate s.a 28 ^^^ rotate s.a 34 ^^^ rotate s.a 39
  let majority := (s.a &&& s.b) ^^^ (s.a &&& s.c) ^^^ (s.b &&& s.c)
  ⟨t1 + (s0 + majority), s.a, s.b, s.c, s.d + t1, s.e, s.f, s.g⟩

/-- Mix one block into the state. -/
def compress (state : Words UInt64) (block : Bytes) : Words UInt64 :=
  let schedule := Nat.repeat stretch 64 (wordsOf block)
  let mixed := Nat.fold 80 (fun i _ s => round s (constants.getD i 0) (schedule.getD i 0)) state
  Words.zipWith (· + ·) state mixed

/-- The final state of a message from the given start. -/
def digestFrom (start : Words UInt64) (message : Bytes) : Bytes :=
  let state := foldBlocks 128 compress start (message ++ padding 128 16 message.length)
  state.toList.flatMap fun w => Bytes.ofNat 8 w.toNat

end Sha512

/-- The SHA-512 digest, 64 bytes. -/
def sha512 (message : Bytes) : Bytes := Sha512.digestFrom Sha512.start message

/-- The SHA-384 digest, 48 bytes. -/
def sha384 (message : Bytes) : Bytes := (Sha512.digestFrom Sha512.start384 message).take 48

end RouterSeed.Digest
