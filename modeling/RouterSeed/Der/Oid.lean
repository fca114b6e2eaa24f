/-
Object identifiers.

An identifier is kept as its content bytes, which decide equality; the
arcs are read off them for the dotted text that error messages show. An
arc is a 32 bit number: the fifth byte of an arc may hold only four
bits, and an identifier has at least three bytes and at most 39.
-/
import RouterSeed.Der.Basic

namespace RouterSeed.Der

/-- An object identifier, by its content bytes. -/
structure Oid where
  content : Bytes
  deriving DecidableEq, Repr

namespace Oid

-- ========================================================== writing

/-- The base 128 digits of an arc above its last one, which ends it. -/
def upperDigits (n : Nat) : Bytes :=
  if n = 0 then [] else upperDigits (n / 128) ++ [UInt8.ofNat (0x80 + n % 128)]
termination_by n

/-- An arc in base 128; all digits but the last have the high bit set. -/
def arcBytes (n : Nat) : Bytes := upperDigits (n / 128) ++ [UInt8.ofNat (n % 128)]

/-- The identifier with the given arcs. -/
def ofArcs : List Nat → Oid
  | first :: second :: rest => ⟨UInt8.ofNat (first * 40 + second) :: rest.flatMap arcBytes⟩
  | _ => ⟨[]⟩

-- ========================================================== reading

/-- The arcs after the first byte, in `bytes`, of which the current one
has the value `value` so far, in `taken` bytes. -/
def arcsFrom : Bytes → (value taken : Nat) → Option (List Nat)
  | [], _, taken => if taken = 0 then some [] else none
  | b :: rest, value, taken =>
    if 4 ≤ taken ∧ 0x10 ≤ b then none
    else
      let value := (value * 128 + b.toNat % 128) % 2 ^ 32
      if b < 0x80 then (value :: ·) <$> arcsFrom rest 0 0
      else arcsFrom rest value (taken + 1)

/-- The arcs of an identifier with the given content. -/
def arcsOfContent : Bytes → Option (List Nat)
  | [] => none
  | root :: rest =>
    if 120 ≤ root then none
    else (fun more => root.toNat / 40 :: root.toNat % 40 :: more) <$> arcsFrom rest 0 0

/-- The identifier with the given content, if it is one. -/
def ofContent (content : Bytes) : Option Oid :=
  if content.length < 3 ∨ 39 < content.length then none
  else (arcsOfContent content).map fun _ => ⟨content⟩

/-- The arcs of an identifier. -/
def arcs (oid : Oid) : List Nat := (arcsOfContent oid.content).getD []

/-- The arcs joined by dots. -/
def text (oid : Oid) : String := ".".intercalate (oid.arcs.map toString)

/-- An object identifier element. -/
def encode (oid : Oid) : Bytes := Der.encode oidTag oid.content

end Oid

/-- Read an object identifier element. -/
def oid : Reader Oid := do
  match Oid.ofContent (← tagged oidTag) with
  | some o => pure o
  | none => failure

end RouterSeed.Der
