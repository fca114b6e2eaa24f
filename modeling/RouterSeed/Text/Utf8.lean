/-
Reading bytes as text.

A signer id and a version arrive as bytes of an untrusted file and are
shown to people, so reading never fails: each maximal part of the input
that is no character becomes one replacement character (U+FFFD). A
"maximal part" is the longest run that is the beginning of some
well-formed character, or a single byte if there is none, which is the
substitution the Unicode standard recommends.

A configuration file, on the other hand, has to be text: `decode?` reads
the same pieces and refuses the first bad one.
-/
import RouterSeed.Bytes

namespace RouterSeed.Text

/-- What a decoder meets: a character, or a part that is none. -/
inductive Piece where
  | char (c : Char)
  | invalid
  deriving DecidableEq

namespace Piece

/-- The character shown for a piece. -/
def shown : Piece → Char
  | .char c => c
  | .invalid => '\uFFFD'

/-- The character of a piece, if it is one. -/
def char? : Piece → Option Char
  | .char c => some c
  | .invalid => none

end Piece

-- ===================================================== one character

/-- The bytes that may follow a leading byte, one interval for each
continuation, or `none` when no character starts with it. The first
interval keeps overlong forms, surrogates and values above U+10FFFF out. -/
def continuations (lead : UInt8) : Option (List (UInt8 × UInt8)) :=
  let any := (0x80, 0xBF)
  if lead < 0x80 then some []
  else if lead < 0xC2 then none
  else if lead < 0xE0 then some [any]
  else if lead = 0xE0 then some [(0xA0, 0xBF), any]
  else if lead = 0xED then some [(0x80, 0x9F), any]
  else if lead < 0xF0 then some [any, any]
  else if lead = 0xF0 then some [(0x90, 0xBF), any, any]
  else if lead < 0xF4 then some [any, any, any]
  else if lead = 0xF4 then some [(0x80, 0x8F), any, any]
  else none

/-- The payload bits of a leading byte whose character has `more`
continuation bytes. -/
def leadBits (lead : UInt8) (more : Nat) : Nat :=
  match more with
  | 0 => lead.toNat
  | 1 => lead.toNat % 32
  | 2 => lead.toNat % 16
  | _ => lead.toNat % 8

/-- Follow the intervals through `bytes`, gathering the code point, and
say how many bytes fitted. -/
def follow : List (UInt8 × UInt8) → Bytes → (code taken : Nat) → Piece × Nat
  | [], _, code, taken => (.char (Char.ofNat code), taken)
  | _ :: _, [], _, taken => (.invalid, taken)
  | (low, high) :: more, b :: rest, code, taken =>
    if low ≤ b ∧ b ≤ high then follow more rest (code * 64 + b.toNat % 64) (taken + 1)
    else (.invalid, taken)

/-- The piece that starts with `lead`, and how many bytes of `rest`
belong to it. -/
def pieceAt (lead : UInt8) (rest : Bytes) : Piece × Nat :=
  match continuations lead with
  | none => (.invalid, 0)
  | some intervals => follow intervals rest (leadBits lead intervals.length) 0

-- ======================================================= whole texts

/-- The pieces of `bytes` after those already `seen`, the latest first. -/
def gather (bytes : Bytes) (seen : List Piece) : List Piece :=
  match bytes with
  | [] => seen
  | lead :: rest =>
    let (piece, taken) := pieceAt lead rest
    gather (rest.drop taken) (piece :: seen)
termination_by bytes.length
decreasing_by simp only [List.length_drop, List.length_cons]; omega

/-- The pieces of `bytes`, in order. -/
def pieces (bytes : Bytes) : List Piece := (gather bytes []).reverse

/-- The text shown for `bytes`; parts that are no character become U+FFFD. -/
def decodeLossy (bytes : Bytes) : String := String.ofList ((pieces bytes).map Piece.shown)

/-- The text `bytes` encode, if every piece of them is a character. -/
def decode? (bytes : Bytes) : Option String :=
  ((pieces bytes).mapM Piece.char?).map String.ofList

end RouterSeed.Text
