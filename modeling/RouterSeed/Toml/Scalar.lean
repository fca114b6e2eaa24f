/-
Numbers, dates and times in TOML.

Digits may be grouped by single underscores. An integer is decimal, or
hexadecimal, octal or binary behind `0x`, `0o` or `0b`, and fits 64
signed bits. A decimal number is a float if it has a fraction or an
exponent; a positive one may not be too large. Dates have to exist.
-/
import RouterSeed.Calendar
import RouterSeed.Number.Digits
import RouterSeed.Number.Power
import RouterSeed.Text.Reader
import RouterSeed.Toml.Value

namespace RouterSeed.Toml

open Text (Reader)
open Text.Reader (any char word hasWord takeWhile peek?)

-- =========================================================== digits

/-- Read digits with single underscores between some of them; at most
`fuel` groups. -/
def groupedUpTo (radix : Nat) : (fuel : Nat) → Reader (List Char)
  | 0 => failure
  | fuel + 1 => do
    let taken ← takeWhile (Number.isDigit radix)
    if taken = [] then failure
    if ← hasWord ['_'] then pure (taken ++ (← groupedUpTo radix fuel)) else pure taken

/-- Read digits with single underscores between some of them. -/
def grouped (radix : Nat) : Reader (List Char) := do
  groupedUpTo radix ((← get).length + 1)

/-- Read a sign, and say whether it is a minus. -/
def sign : Reader Bool := do
  if ← hasWord ['-'] then pure true
  else
    let _ ← hasWord ['+']
    pure false

/-- Read a decimal number without superfluous zeros in front. -/
def decimal : Reader (List Char) := do
  match ← peek? with
  | some '0' =>
    char '0'
    pure ['0']
  | _ => grouped 10

-- ========================================================= integers

/-- The first number that takes more than 64 signed bits. -/
def integerLimit : Nat := 2 ^ 63

/-- Whether a number fits 64 signed bits. -/
def fitsInteger (n : Int) : Bool := -(integerLimit : Int) ≤ n && n < (integerLimit : Int)

/-- Read the digits of an integer in a radix that its prefix names. -/
def based (radix : Nat) : Reader Int := do
  pure (Number.ofDigits radix (← grouped radix) : Nat)

/-- Read a number behind its prefix, if it has one. -/
def prefixed : Reader Int := do
  if ← hasWord ['0', 'x'] then based 16
  else if ← hasWord ['0', 'o'] then based 8
  else if ← hasWord ['0', 'b'] then based 2
  else
    let isNegative ← sign
    let number : Int := (Number.ofDigits 10 (← decimal) : Nat)
    pure (if isNegative then -number else number)

/-- Read an integer. -/
def integer : Reader Value := do
  let number ← prefixed
  if fitsInteger number then pure (.integer number) else failure

-- =========================================================== floats

/-- The least number that is rounded to infinity. -/
def infinityThreshold : Nat := 2 ^ 1024 - 2 ^ 970

/-- Whether `digits`, taken as an integer times a power of ten, reach
infinity. -/
def isInfinite (digits : List Char) (exponent : Int) : Bool :=
  let number := Number.ofDigits 10 digits
  if number = 0 then false
  else if 400 < exponent then true
  else if 0 ≤ exponent then infinityThreshold ≤ number * 10 ^ exponent.toNat
  else if (digits.length : Int) < -exponent then false
  else infinityThreshold * 10 ^ (-exponent).toNat ≤ number

/-- Read an exponent. -/
def exponent : Reader Int := do
  if !(← hasWord ['e']) then char 'E'
  let isNegative ← sign
  let number : Int := (Number.ofDigits 10 (← grouped 10) : Nat)
  pure (if isNegative then -number else number)

/-- Read a float with a fraction or an exponent or both. -/
def pointed : Reader Value := do
  let isNegative ← sign
  let whole ← decimal
  let fraction ← if ← hasWord ['.'] then some <$> grouped 10 else pure none
  let power ← if fraction.isSome then optional exponent else some <$> exponent
  let fraction := fraction.getD []
  let isTooLarge := isInfinite (whole ++ fraction) (power.getD 0 - fraction.length)
  if isTooLarge ∧ !isNegative then failure else pure .float

/-- Read a float that is no number, or none that is finite. -/
def special : Reader Value := do
  let _ ← sign
  if ← hasWord ['i', 'n', 'f'] then pure .float
  else
    word ['n', 'a', 'n']
    pure .float

-- ================================================== dates and times

/-- Read a number of so many digits. -/
def fixed (count : Nat) : Reader Nat := do
  let input ← get
  let taken := input.take count
  if taken.length ≠ count ∨ !taken.all (Number.isDigit 10) then failure
  set (input.drop count)
  pure (Number.ofDigits 10 taken)

/-- Read a date that exists. -/
def date : Reader Unit := do
  let year ← fixed 4
  char '-'
  let month ← fixed 2
  char '-'
  let day ← fixed 2
  if day < 1 ∨ Calendar.daysInMonth year month < day then failure

/-- Read hours and minutes. -/
def hoursAndMinutes : Reader Unit := do
  let hour ← fixed 2
  char ':'
  let minute ← fixed 2
  if 24 ≤ hour ∨ 60 ≤ minute then failure

/-- Read a time of day, which may be a leap second. -/
def time : Reader Unit := do
  hoursAndMinutes
  char ':'
  let second ← fixed 2
  if 60 < second then failure
  if ← hasWord ['.'] then
    let digits ← takeWhile (Number.isDigit 10)
    if digits = [] then failure

/-- Read the distance of a time from UTC. -/
def offset : Reader Unit := do
  match ← any with
  | 'Z' | 'z' => pure ()
  | '+' | '-' => hoursAndMinutes
  | _ => failure

/-- Read the time behind a date. -/
def timeAfterDate : Reader Unit := do
  match ← any with
  | 'T' | 't' | ' ' =>
    time
    let _ ← optional offset
  | _ => failure

/-- Read a date, a time, or both. -/
def dateTime : Reader Value := do
  match ← optional date with
  | some () =>
    let _ ← optional timeAfterDate
    pure .dateTime
  | none =>
    time
    pure .dateTime

-- ============================================================== all

/-- Read a truth value. -/
def boolean : Reader Value := do
  if ← hasWord "true".toList then pure (.boolean true)
  else
    word "false".toList
    pure (.boolean false)

/-- Read a value that is neither a string nor made of others. -/
def scalar : Reader Value := dateTime <|> pointed <|> special <|> integer <|> boolean

end RouterSeed.Toml
