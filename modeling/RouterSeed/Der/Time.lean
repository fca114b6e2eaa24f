/-
The two time elements of a certificate's validity.

The older form has two digits for the year, which stand for 1950 to
2049; the newer one has four. Both are written in UTC to the second and
end in `Z`. A time before 1970 or after 9999 is not read, nor is a date
that the calendar does not have.
-/
import RouterSeed.Calendar
import RouterSeed.Der.Basic

namespace RouterSeed.Der

open Calendar

/-- The form of a time element. -/
inductive TimeForm where
  | utc
  | generalized
  deriving DecidableEq, Repr

/-- A time element. -/
structure Time where
  form : TimeForm
  date : DateTime
  deriving DecidableEq, Repr

namespace Time

/-- The lowest `width` decimal digits of `n`. -/
def digits (width n : Nat) : Bytes :=
  ((List.range width).reverse.map fun i => UInt8.ofNat (48 + n / 10 ^ i % 10))

/-- The number written by decimal digits. -/
def number? (bytes : Bytes) : Option Nat :=
  bytes.foldlM (fun n b => if 48 ≤ b ∧ b ≤ 57 then some (n * 10 + (b.toNat - 48)) else none) 0

/-- The digits of everything but the year, and the closing `Z`. -/
def restContent (t : DateTime) : Bytes :=
  [t.month, t.day, t.hour, t.minute, t.second].flatMap (digits 2) ++ [90]

/-- The content of a time element. -/
def content (t : Time) : Bytes :=
  match t.form with
  | .utc => digits 2 (t.date.year.toNat % 100) ++ restContent t.date
  | .generalized => digits 4 t.date.year.toNat ++ restContent t.date

/-- The tag byte of a time element. -/
def tag (t : Time) : UInt8 :=
  match t.form with
  | .utc => utcTimeTag
  | .generalized => generalizedTimeTag

/-- A time element. -/
def encode (t : Time) : Bytes := Der.encode t.tag t.content

/-- Read everything after the year. -/
def ofRest (form : TimeForm) (year : Nat) (bytes : Bytes) : Option Time := do
  if bytes.length ≠ 11 ∨ bytes.getLast? ≠ some 90 then failure
  let field (i : Nat) := number? (Bytes.slice (2 * i) 2 bytes)
  let t : DateTime :=
    { year, month := ← field 0, day := ← field 1, hour := ← field 2, minute := ← field 3,
      second := ← field 4 }
  if 1970 ≤ year ∧ t.Valid then some ⟨form, t⟩ else none

/-- Read a time element. -/
def ofElement (e : Element) : Option Time :=
  if e.tag = utcTimeTag then do
    let year ← number? (e.content.take 2)
    ofRest .utc (if year < 50 then 2000 + year else 1900 + year) (e.content.drop 2)
  else if e.tag = generalizedTimeTag then do
    let year ← number? (e.content.take 4)
    ofRest .generalized year (e.content.drop 4)
  else none

/-- The time `seconds` seconds after 1970, in the form a certificate has
to use: two digits for the year through 2049, four digits after that. -/
def ofSeconds? (seconds : Nat) : Option Time :=
  let t := DateTime.ofSeconds seconds
  if t.year ≤ 2049 then some ⟨.utc, t⟩
  else if t.year ≤ 9999 then some ⟨.generalized, t⟩
  else none

/-- Seconds since 1970. -/
def seconds (t : Time) : Int := t.date.seconds

end Time

/-- Read a time element. -/
def time : Reader Time := do
  match Time.ofElement (← element) with
  | some t => pure t
  | none => failure

end RouterSeed.Der
