/-
The distinguished encoding rules, as far as keys, signatures and
certificates need them.

An element is a tag byte, a length and that many content bytes. Each
value has exactly one encoding, so reading is strict: a length in its
shortest form, no indefinite lengths, integers without a spare leading
byte, nothing after the last element of a structure. Whatever a reader
accepts is therefore what `Element.encode` would write, and a signature
made over an encoding can be checked over a re-encoding.

A reader takes elements from the front of its input; `whole` runs one
and asks for the input to be used up, and `within` does so for the
content of one element. Consumed by the key, signature and certificate
modules.
-/
import RouterSeed.Bytes

namespace RouterSeed.Der

-- ============================================================= tags

/-- The tag bytes this library writes or looks for. -/
def boolTag : UInt8 := 0x01
def integerTag : UInt8 := 0x02
def bitStringTag : UInt8 := 0x03
def octetStringTag : UInt8 := 0x04
def nullTag : UInt8 := 0x05
def oidTag : UInt8 := 0x06
def utf8StringTag : UInt8 := 0x0C
def printableStringTag : UInt8 := 0x13
def utcTimeTag : UInt8 := 0x17
def generalizedTimeTag : UInt8 := 0x18
def sequenceTag : UInt8 := 0x30
def setTag : UInt8 := 0x31

/-- The tag byte of a constructed context-specific element. -/
def explicitTag (number : Nat) : UInt8 := UInt8.ofNat (0xA0 + number)

/-- The tag byte of a primitive context-specific element. -/
def implicitTag (number : Nat) : UInt8 := UInt8.ofNat (0x80 + number)

/-- The universal tags in use; sequences and sets are constructed, all
others primitive. -/
def universalTags : List UInt8 :=
  [0x01, 0x02, 0x03, 0x04, 0x05, 0x06, 0x09, 0x0A, 0x0C, 0x12, 0x13, 0x14, 0x15, 0x16, 0x17,
    0x18, 0x1A, 0x1E, 0x30, 0x31]

/-- A tag byte that can stand before an element. Number 31 announces a
longer tag, which nothing here uses. -/
def knownTag (tag : UInt8) : Bool :=
  tag.toNat % 32 ≠ 31 && (0x40 ≤ tag || universalTags.contains tag)

/-- The number of a context-specific tag byte. -/
def contextNumber? (tag : UInt8) : Option Nat :=
  if 0x80 ≤ tag ∧ tag < 0xC0 then some (tag.toNat % 32) else none

-- ========================================================== lengths

/-- The longest encoding there is, in bytes. Longer ones are neither read
nor let out; whoever writes one has to look. -/
def maxLength : Nat := 0x0FFFFFFF

/-- A length: one byte below 128, otherwise the number of bytes and then
the bytes. -/
def encodeLength (n : Nat) : Bytes :=
  if n < 128 then [UInt8.ofNat n]
  else UInt8.ofNat (0x80 + Bytes.widthOf n) :: Bytes.ofNatMinimal n

/-- Read a length in its shortest form, of at most four bytes. -/
def decodeLength : Bytes → Option (Nat × Bytes)
  | [] => none
  | lead :: rest =>
    if lead < 0x80 then some (lead.toNat, rest)
    else
      let width := lead.toNat - 0x80
      let digits := rest.take width
      let n := Bytes.toNat digits
      if width = 0 ∨ 4 < width ∨ digits.length ≠ width ∨ n < 128 ∨ Bytes.widthOf n ≠ width
          ∨ maxLength < n then
        none
      else some (n, rest.drop width)

-- ========================================================= elements

/-- One element: its tag byte and its content. -/
structure Element where
  tag : UInt8
  content : Bytes
  deriving DecidableEq, Repr

namespace Element

/-- The bytes of an element. -/
def encode (e : Element) : Bytes := e.tag :: (encodeLength e.content.length ++ e.content)

/-- Read one element from the front of `bytes`. -/
def decode : Bytes → Option (Element × Bytes)
  | [] => none
  | tag :: rest =>
    if !knownTag tag then none
    else do
      let (length, rest) ← decodeLength rest
      let content := rest.take length
      if content.length ≠ length then none
      else some (⟨tag, content⟩, rest.drop length)

end Element

/-- The bytes of an element with the given tag and content. -/
def encode (tag : UInt8) (content : Bytes) : Bytes := Element.encode ⟨tag, content⟩

/-- A sequence of elements already encoded. -/
def sequence (parts : List Bytes) : Bytes := encode sequenceTag parts.flatten

-- ========================================================== readers

/-- Reads a value from the front of its input and leaves the rest. -/
abbrev Reader := StateT Bytes Option

/-- Run a reader on all of `bytes`; bytes left over are an error. -/
def whole (r : Reader α) (bytes : Bytes) : Option α :=
  match r bytes with
  | some (a, []) => some a
  | _ => none

/-- The next element, whatever it is. -/
def element : Reader Element := Element.decode

/-- The content of the next element, which must have the given tag. -/
def tagged (tag : UInt8) : Reader Bytes := do
  let e ← element
  if e.tag = tag then pure e.content else failure

/-- Run `r` on the whole content of the next element, which must have the
given tag. -/
def within (tag : UInt8) (r : Reader α) : Reader α := do
  let content ← tagged tag
  match whole r content with
  | some a => pure a
  | none => failure

/-- Whether the input is used up. -/
def atEnd : Reader Bool := do return (← get).isEmpty

/-- Read values until the input is used up. Every value takes at least
one byte, so `fuel` bytes hold at most `fuel` of them. -/
def manyUpTo (r : Reader α) : (fuel : Nat) → Reader (List α)
  | 0 => do if ← atEnd then pure [] else failure
  | fuel + 1 => do
    if ← atEnd then pure []
    else
      let a ← r
      let more ← manyUpTo r fuel
      pure (a :: more)

/-- Read values until the input is used up. -/
def many (r : Reader α) : Reader (List α) := do manyUpTo r (← get).length

/-- Look for the context-specific element with the given number. Elements
of a lower number before it are passed over; any other element, or the
end of the input, means that it is absent. -/
def contextUpTo (number : Nat) : (fuel : Nat) → Reader (Option Element)
  | 0 => pure none
  | fuel + 1 => do
    match ← get with
    | [] => pure none
    | tag :: _ =>
      if !knownTag tag then failure
      else
        match contextNumber? tag with
        | none => pure none
        | some n =>
          if number < n then pure none
          else if n = number then some <$> element
          else do
            let _ ← element
            contextUpTo number fuel

/-- Look for the context-specific element with the given number. -/
def context? (number : Nat) : Reader (Option Element) := do contextUpTo number (← get).length

/-- An optional value in an explicit context-specific element. -/
def explicit? (number : Nat) (r : Reader α) : Reader (Option α) := do
  match ← context? number with
  | none => pure none
  | some e =>
    if e.tag = explicitTag number then
      match whole r e.content with
      | some a => pure (some a)
      | none => failure
    else failure

-- ========================================================= integers

/-- The content of a non-negative integer: its bytes, with a zero byte in
front when the first one would look like a sign. -/
def unsignedContent (n : Nat) : Bytes :=
  let digits := Bytes.ofNatMinimal n
  match digits with
  | lead :: _ => if lead < 0x80 then digits else 0 :: digits
  | [] => digits

/-- Read the content of a non-negative integer in its shortest form. -/
def unsignedOfContent : Bytes → Option Nat
  | [] => none
  | [b] => if b < 0x80 then some b.toNat else none
  | 0 :: b :: rest => if b < 0x80 then none else some (Bytes.toNat (b :: rest))
  | b :: rest => if b < 0x80 then some (Bytes.toNat (b :: rest)) else none

/-- A non-negative integer element. -/
def encodeUnsigned (n : Nat) : Bytes := encode integerTag (unsignedContent n)

/-- Read a non-negative integer element. -/
def unsigned : Reader Nat := do
  match unsignedOfContent (← tagged integerTag) with
  | some n => pure n
  | none => failure

/-- The content of an integer of either sign is in its shortest form: the
first nine bits are not all alike. -/
def isShortestInteger : Bytes → Bool
  | [] => false
  | [_] => true
  | 0x00 :: b :: _ => 0x80 ≤ b
  | 0xFF :: b :: _ => b < 0x80
  | _ => true

-- ======================================================= bit strings

/-- A bit string: its bytes, and how many bits of the last one are not
part of it. -/
structure BitString where
  unused : UInt8
  bytes : Bytes
  deriving DecidableEq, Repr

namespace BitString

/-- A bit string of whole bytes. -/
def ofBytes (bytes : Bytes) : BitString := ⟨0, bytes⟩

/-- The bytes, if no bit is unused. -/
def bytes? (b : BitString) : Option Bytes := if b.unused = 0 then some b.bytes else none

/-- The content of a bit string element. -/
def content (b : BitString) : Bytes := b.unused :: b.bytes

/-- Read the content of a bit string element. -/
def ofContent : Bytes → Option BitString
  | [] => none
  | unused :: bytes =>
    if 7 < unused ∨ (unused ≠ 0 ∧ bytes = []) then none else some ⟨unused, bytes⟩

/-- A bit string element. -/
def encode (b : BitString) : Bytes := Der.encode bitStringTag b.content

end BitString

/-- Read a bit string element. -/
def bitString : Reader BitString := do
  match BitString.ofContent (← tagged bitStringTag) with
  | some b => pure b
  | none => failure

/-- An optional bit string under an implicit context-specific tag. -/
def implicitBits? (number : Nat) : Reader (Option BitString) := do
  match ← context? number with
  | none => pure none
  | some e =>
    match BitString.ofContent e.content with
    | some bits => if e.tag = implicitTag number then pure (some bits) else failure
    | none => failure

end RouterSeed.Der
