/-
Base 64 with the standard alphabet and padding.

Three bytes are four digits; a rest of one or two bytes is two or three
digits and padding up to four. Reading is strict: the padding has to be
there, and the unused bits of the last digit have to be zero, so that
every byte string has one written form.
-/
import RouterSeed.Bytes

namespace RouterSeed.Base64

-- =========================================================== digits

/-- The digit with the given value. -/
def digit (value : Nat) : UInt8 :=
  if value < 26 then UInt8.ofNat (65 + value)
  else if value < 52 then UInt8.ofNat (97 + (value - 26))
  else if value < 62 then UInt8.ofNat (48 + (value - 52))
  else if value = 62 then 43
  else 47

/-- The value of a digit. -/
def value? (d : UInt8) : Option Nat :=
  if 65 ≤ d ∧ d ≤ 90 then some (d.toNat - 65)
  else if 97 ≤ d ∧ d ≤ 122 then some (d.toNat - 97 + 26)
  else if 48 ≤ d ∧ d ≤ 57 then some (d.toNat - 48 + 52)
  else if d = 43 then some 62
  else if d = 47 then some 63
  else none

/-- The padding character. -/
def padding : UInt8 := 61

-- ================================================== groups of three

/-- The written form. -/
def encode : Bytes → Bytes
  | [] => []
  | [a] =>
    let n := a.toNat * 65536
    [digit (n / 262144), digit (n / 4096 % 64), padding, padding]
  | [a, b] =>
    let n := a.toNat * 65536 + b.toNat * 256
    [digit (n / 262144), digit (n / 4096 % 64), digit (n / 64 % 64), padding]
  | a :: b :: c :: rest =>
    let n := a.toNat * 65536 + b.toNat * 256 + c.toNat
    digit (n / 262144) :: digit (n / 4096 % 64) :: digit (n / 64 % 64) :: digit (n % 64)
      :: encode rest

/-- The one byte of a last group with two digits. -/
def lastOne (a b : UInt8) : Option Bytes := do
  let n := (← value? a) * 64 + (← value? b)
  if n % 16 = 0 then some [UInt8.ofNat (n / 16)] else none

/-- The two bytes of a last group with three digits. -/
def lastTwo (a b c : UInt8) : Option Bytes := do
  let n := (← value? a) * 4096 + (← value? b) * 64 + (← value? c)
  if n % 4 = 0 then some [UInt8.ofNat (n / 1024), UInt8.ofNat (n / 4)] else none

/-- The bytes of a written form. -/
def decode? : Bytes → Option Bytes
  | [] => some []
  | [a, b, c, d] =>
    if d = padding then if c = padding then lastOne a b else lastTwo a b c
    else do
      let n := (← value? a) * 262144 + (← value? b) * 4096 + (← value? c) * 64 + (← value? d)
      some [UInt8.ofNat (n / 65536), UInt8.ofNat (n / 256), UInt8.ofNat n]
  | a :: b :: c :: d :: rest => do
    let n := (← value? a) * 262144 + (← value? b) * 4096 + (← value? c) * 64 + (← value? d)
    let more ← decode? rest
    some (UInt8.ofNat (n / 65536) :: UInt8.ofNat (n / 256) :: UInt8.ofNat n :: more)
  | _ => none

end RouterSeed.Base64
