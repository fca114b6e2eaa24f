/-
Numbers as digits of a radix up to sixteen, the way addresses and file
names write them: no sign, and no zero in front of other digits.
-/

namespace RouterSeed.Number

/-- The digits of a number, the first one first. -/
def digits (radix n : Nat) : List Char :=
  if n < radix ∨ radix < 2 then [Nat.digitChar n]
  else digits radix (n / radix) ++ [Nat.digitChar (n % radix)]
termination_by n
decreasing_by exact Nat.div_lt_self (by omega) (by omega)

/-- The value of a digit, of either case. -/
def digitValue? (radix : Nat) (c : Char) : Option Nat :=
  let value :=
    if '0' ≤ c ∧ c ≤ '9' then c.toNat - '0'.toNat
    else if 'a' ≤ c ∧ c ≤ 'z' then c.toNat - 'a'.toNat + 10
    else if 'A' ≤ c ∧ c ≤ 'Z' then c.toNat - 'A'.toNat + 10
    else radix
  if value < radix then some value else none

/-- Whether a character is a digit of the radix. -/
def isDigit (radix : Nat) (c : Char) : Bool := (digitValue? radix c).isSome

/-- The number that digits stand for. -/
def ofDigits (radix : Nat) (cs : List Char) : Nat :=
  cs.foldl (fun n c => n * radix + (digitValue? radix c).getD 0) 0

end RouterSeed.Number
