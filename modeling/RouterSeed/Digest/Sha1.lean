/-
SHA-1, which only the DSA signature type still asks for.

Padding and blocks are those of SHA-256; the state has five words, and
each fourth of the eighty rounds has its own mixing function and
constant.
-/
import RouterSeed.Digest.Sha2

namespace RouterSeed.Digest

namespace Sha1

/-- Rotate left. -/
def rotate (x : UInt32) (n : UInt32) : UInt32 := (x <<< n) ||| (x >>> (32 - n))

/-- The five working words. -/
structure State where
  a : UInt32
  b : UInt32
  c : UInt32
  d : UInt32
  e : UInt32
  deriving DecidableEq, Repr

/-- The start value. -/
def start : State := ⟨0x67452301, 0xefcdab89, 0x98badcfe, 0x10325476, 0xc3d2e1f0⟩

/-- One further word of the message schedule. -/
def stretch (w : Array UInt32) : Array UInt32 :=
  let n := w.size
  w.push (rotate (w.getD (n - 3) 0 ^^^ w.getD (n - 8) 0 ^^^ w.getD (n - 14) 0
    ^^^ w.getD (n - 16) 0) 1)

/-- The mixing function and the constant of round `i`. -/
def mix (i : Nat) (b c d : UInt32) : UInt32 × UInt32 :=
  if i < 20 then ((b &&& c) ||| (~~~b &&& d), 0x5a827999)
  else if i < 40 then (b ^^^ c ^^^ d, 0x6ed9eba1)
  else if i < 60 then ((b &&& c) ||| (b &&& d) ||| (c &&& d), 0x8f1bbcdc)
  else (b ^^^ c ^^^ d, 0xca62c1d6)

/-- One round, with its word. -/
def round (i : Nat) (s : State) (w : UInt32) : State :=
  let (f, k) := mix i s.b s.c s.d
  ⟨rotate s.a 5 + f + s.e + k + w, s.a, rotate s.b 30, s.c, s.d⟩

/-- Mix one block into the state. -/
def compress (s : State) (block : Bytes) : State :=
  let schedule := Nat.repeat stretch 64 (Sha256.wordsOf block)
  let t := Nat.fold 80 (fun i _ s => round i s (schedule.getD i 0)) s
  ⟨s.a + t.a, s.b + t.b, s.c + t.c, s.d + t.d, s.e + t.e⟩

end Sha1

/-- The SHA-1 digest, 20 bytes. -/
def sha1 (message : Bytes) : Bytes :=
  let s := foldBlocks 64 Sha1.compress Sha1.start (message ++ padding 64 8 message.length)
  [s.a, s.b, s.c, s.d, s.e].flatMap fun w => Bytes.ofNat 4 w.toNat

end RouterSeed.Digest
