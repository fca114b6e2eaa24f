/-
Internet addresses as text, alone and with a port.

An IPv4 address is four decimal numbers without superfluous zeros. An
IPv6 address is eight groups of up to four hexadecimal digits, of which
one series of zero groups may be left out and the last two may be
written as an IPv4 address; with a port it stands in brackets, possibly
followed by a scope, which does not belong to the address.

An address has one written form: lower case, without superfluous zeros,
the longest series of zero groups left out and the first one of several;
an IPv4 address in IPv6 shows its IPv4 form.
-/
import RouterSeed.Number.Digits
import RouterSeed.Text.Reader

namespace RouterSeed

-- ========================================================= addresses

/-- An IPv4 address. -/
structure Ipv4 where
  a : UInt8
  b : UInt8
  c : UInt8
  d : UInt8
  deriving DecidableEq, Repr

/-- An IPv6 address. -/
structure Ipv6 where
  groups : List UInt16
  length_groups : groups.length = 8
  deriving DecidableEq, Repr

/-- The address with the given groups, if they are eight. -/
def Ipv6.ofGroups? (groups : List UInt16) : Option Ipv6 :=
  if h : groups.length = 8 then some ⟨groups, h⟩ else none

/-- An internet address. -/
inductive IpAddress where
  | v4 (address : Ipv4)
  | v6 (address : Ipv6)
  deriving DecidableEq, Repr

open Text (Reader)
open Text.Reader (char)

namespace IpAddress

-- ========================================================== reading

/-- Read all digits that come next, and take them for a number. -/
def number (radix bound : Nat) : Reader (List Char × Nat) := do
  let taken ← Reader.takeWhile (Number.isDigit radix)
  let value := Number.ofDigits radix taken
  if taken = [] ∨ bound < value then failure
  pure (taken, value)

/-- Read a decimal number of one byte. -/
def octet : Reader UInt8 := do
  let (taken, value) ← number 10 255
  if 3 < taken.length ∨ (taken.head? = some '0' ∧ 1 < taken.length) then failure
  pure (UInt8.ofNat value)

/-- Read an IPv4 address. -/
def ipv4 : Reader Ipv4 := do
  let a ← octet
  char '.'
  let b ← octet
  char '.'
  let c ← octet
  char '.'
  let d ← octet
  pure ⟨a, b, c, d⟩

/-- Read a group of an IPv6 address. -/
def group : Reader UInt16 := do
  let (taken, value) ← number 16 0xFFFF
  if 4 < taken.length then failure
  pure (UInt16.ofNat value)

/-- Read something with a colon in front of it, unless it is the first. -/
def separated {α : Type} (isFirst : Bool) (reader : Reader α) : Reader α := do
  if !isFirst then char ':'
  reader

/-- The two groups of an IPv4 address. -/
def groupsOf (address : Ipv4) : List UInt16 :=
  [address.a.toUInt16 * 256 + address.b.toUInt16, address.c.toUInt16 * 256 + address.d.toUInt16]

/-- As many groups as there are, but at most `count`, with whether the
last two were an IPv4 address, and what follows them. -/
def groups : (count : Nat) → (isFirst : Bool) → List Char → (List UInt16 × Bool) × List Char
  | 0, _, input => (([], false), input)
  | count + 1, isFirst, input =>
    match if count = 0 then none else separated isFirst ipv4 input with
    | some (address, input) => ((groupsOf address, true), input)
    | none =>
      match separated isFirst group input with
      | none => (([], false), input)
      | some (g, input) =>
        let ((more, embedded), input) := groups count false input
        ((g :: more, embedded), input)

/-- Read an IPv6 address. -/
def ipv6 : Reader Ipv6 := do
  let ((head, embedded), input) := groups 8 true (← get)
  set input
  if head.length = 8 then (Ipv6.ofGroups? head : Option Ipv6)
  else if embedded then failure
  else
    char ':'
    char ':'
    let ((tail, _), input) := groups (7 - head.length) true (← get)
    set input
    Ipv6.ofGroups? (head ++ List.replicate (8 - head.length - tail.length) 0 ++ tail)

/-- Read a colon and a port. -/
def port : Reader Nat := do
  char ':'
  (·.2) <$> number 10 0xFFFF

/-- Read a scope, if there is one. -/
def scope : Reader Unit := do
  match ← get with
  | '%' :: rest =>
    set rest
    let _ ← number 10 0xFFFFFFFF
  | _ => pure ()

/-- Read an address with a port, and leave the port. -/
def withPort : Reader IpAddress := do
  match ← get with
  | '[' :: rest =>
    set rest
    let address ← ipv6
    scope
    char ']'
    let _ ← port
    pure (.v6 address)
  | _ =>
    let address ← ipv4
    let _ ← port
    pure (.v4 address)

/-- The address in a text that is an address with a port. -/
def ofSocketText? (text : String) : Option IpAddress :=
  Reader.whole? withPort text.toList

-- ========================================================== writing

/-- The written form of an IPv4 address. -/
def textOfV4 (address : Ipv4) : List Char :=
  let octet (b : UInt8) : List Char := Number.digits 10 b.toNat
  octet address.a ++ '.' :: octet address.b ++ '.' :: octet address.c ++ '.' :: octet address.d

/-- Groups with colons between them. -/
def textOfGroups (groups : List UInt16) : List Char :=
  [':'].intercalate (groups.map fun g => Number.digits 16 g.toNat)

/-- How many of the groups from position `i` on are zero before one is
not. -/
def zerosAt (groups : List UInt16) (i : Nat) : Nat := ((groups.drop i).takeWhile (· = 0)).length

/-- The start and the length of the longest series of zero groups, the
first one of several. -/
def longestZeros (groups : List UInt16) : Nat × Nat :=
  (List.range groups.length).foldl
    (fun best i => if best.2 < zerosAt groups i then (i, zerosAt groups i) else best) (0, 0)

/-- The IPv4 address in an IPv6 address that stands for one. -/
def embeddedV4? (groups : List UInt16) : Option Ipv4 :=
  match groups with
  | [0, 0, 0, 0, 0, 0xFFFF, high, low] =>
    some ⟨(high / 256).toUInt8, high.toUInt8, (low / 256).toUInt8, low.toUInt8⟩
  | _ => none

/-- The written form of an IPv6 address. -/
def textOfV6 (address : Ipv6) : List Char :=
  match embeddedV4? address.groups with
  | some inner => "::ffff:".toList ++ textOfV4 inner
  | none =>
    let (start, count) := longestZeros address.groups
    if count < 2 then textOfGroups address.groups
    else
      textOfGroups (address.groups.take start) ++ [':', ':']
        ++ textOfGroups (address.groups.drop (start + count))

/-- The written form of an address. -/
def text : IpAddress → String
  | .v4 address => String.ofList (textOfV4 address)
  | .v6 address => String.ofList (textOfV6 address)

end IpAddress

end RouterSeed
