/-
The times of zip entries: two words that name a date and a time of day
in steps of two seconds, from 1980 to 2107.

An instant outside these years becomes the first one inside, an odd
second is rounded down. A date that does not exist reads as the start of
1970.
-/
import RouterSeed.Calendar

namespace RouterSeed.Zip

/-- A date word and a time word. -/
structure DosTime where
  date : UInt16
  time : UInt16
  deriving DecidableEq, Repr

namespace DosTime

/-- 1980-01-01 00:00:00. -/
def earliest : DosTime := ⟨33, 0⟩

/-- Pack the fields of a date and a time of day. -/
def pack (year month day hour minute second : Nat) : DosTime where
  date := UInt16.ofNat ((year - 1980) * 512 + month * 32 + day)
  time := UInt16.ofNat (hour * 2048 + minute * 32 + second / 2)

/-- The fields that the words name, whether or not they are a date. -/
def unpack (t : DosTime) : Calendar.DateTime where
  year := (t.date.toNat / 512 + 1980 : Nat)
  month := t.date.toNat / 32 % 16
  day := t.date.toNat % 32
  hour := t.time.toNat / 2048
  minute := t.time.toNat / 32 % 64
  second := t.time.toNat % 32 * 2

/-- The words for an instant. -/
def ofInstant (instant : Instant) : DosTime :=
  let d := Calendar.DateTime.ofSeconds instant.seconds
  if 1980 ≤ d.year ∧ d.year ≤ 2107 then
    pack d.year.toNat d.month d.day d.hour d.minute d.second
  else earliest

/-- The instant that the words name. -/
def toInstant (t : DosTime) : Instant :=
  if t.unpack.Valid then .ofSeconds t.unpack.seconds else .ofSeconds 0

end DosTime

end RouterSeed.Zip
