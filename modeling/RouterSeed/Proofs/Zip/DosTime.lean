/-
What is left of a time in a zip archive.

The words of an entry have room for the years 1980 to 2107 and for half
of the seconds. Inside these years the fields of an instant go into the
words and come back, but for an odd second; since minutes are even, the
instant that comes back is the last even second
(`toInstant_ofInstant_of_covered`). Outside, every instant becomes the
first one inside.

Reading asks whether the fields exist. Those that were written always
do, so the start of 1970 only ever stands for words from elsewhere that
name no date (`toInstant_eq_epoch_iff`).
-/
import Mathlib.Order.Bounds.Basic
import RouterSeed.Proofs.Calendar
import RouterSeed.Zip.DosTime

namespace RouterSeed

open Calendar (DateTime)

namespace Zip.DosTime

-- =============================================================== words

/-- Fields that fit their bits come back, with the second rounded down to
even. -/
private theorem unpack_pack {year month day hour minute second : Nat} (hyear : 1980 ≤ year)
    (hyear' : year ≤ 2107) (hmonth : month < 16) (hday : day < 32) (hhour : hour < 32)
    (hminute : minute < 64) (hsecond : second < 64) :
    (pack year month day hour minute second).unpack
      = ⟨year, month, day, hour, minute, second / 2 * 2⟩ := by
  have hdate : (UInt16.ofNat ((year - 1980) * 512 + month * 32 + day)).toNat
      = (year - 1980) * 512 + month * 32 + day := by
    rw [UInt16.toNat_ofNat']
    omega
  have htime : (UInt16.ofNat (hour * 2048 + minute * 32 + second / 2)).toNat
      = hour * 2048 + minute * 32 + second / 2 := by
    rw [UInt16.toNat_ofNat']
    omega
  unfold unpack pack
  dsimp only
  rw [hdate, htime]
  simp only [DateTime.mk.injEq]
  omega

/-- The fields of two words have no room for more than seven bits of
years and an even second. -/
private theorem unpack_mem (t : DosTime) :
    1980 ≤ t.unpack.year ∧ t.unpack.year ≤ 2107 ∧ t.unpack.second % 2 = 0 := by
  have hdate : t.date.toNat < 65536 := t.date.toNat_lt
  unfold unpack
  dsimp only
  omega

-- ============================================================ instants

/-- The instant lies in a year that the words can name. -/
def Covers (t : Instant) : Prop :=
  1980 ≤ (DateTime.ofSeconds t.seconds).year ∧ (DateTime.ofSeconds t.seconds).year ≤ 2107

instance (t : Instant) : Decidable (Covers t) := by unfold Covers; infer_instance

/-- A time within the years of the format keeps its date and its time of
day. -/
private theorem unpack_ofInstant_of_covered {t : Instant} (h : Covers t) :
    (ofInstant t).unpack = { DateTime.ofSeconds t.seconds with
      second := (DateTime.ofSeconds t.seconds).second / 2 * 2 } := by
  have hvalid := DateTime.valid_ofSeconds t.seconds
  obtain ⟨-, hmonth, -, hday⟩ := hvalid.date_mem
  obtain ⟨-, -, hhour, hminute, hsecond⟩ := hvalid
  unfold Covers at h
  unfold ofInstant
  dsimp only
  rw [if_pos h, unpack_pack (by omega) (by omega) (by omega) (by omega) (by omega) (by omega)
    (by omega), Int.toNat_of_nonneg (by omega)]

/-- A time outside the years of the format is written as the first of
January 1980. -/
private theorem unpack_ofInstant_of_not_covered {t : Instant} (h : ¬Covers t) :
    (ofInstant t).unpack = ⟨1980, 1, 1, 0, 0, 0⟩ := by
  unfold Covers at h
  unfold ofInstant
  dsimp only
  rw [if_neg h]
  rfl

/-- What is written names a date. -/
private theorem valid_unpack_ofInstant (t : Instant) : (ofInstant t).unpack.Valid := by
  by_cases h : Covers t
  · rw [unpack_ofInstant_of_covered h]
    obtain ⟨hfirst, hlast, hhour, hminute, hsecond⟩ := DateTime.valid_ofSeconds t.seconds
    refine ⟨hfirst, hlast, hhour, hminute, ?_⟩
    dsimp only
    omega
  · rw [unpack_ofInstant_of_not_covered h]
    decide

private theorem toInstant_of_valid {w : DosTime} (h : w.unpack.Valid) :
    w.toInstant = .ofSeconds w.unpack.seconds := if_pos h

/-- A time within the years of the format comes back rounded down to even
seconds. -/
private theorem toInstant_ofInstant_of_covered {t : Instant} (h : Covers t) :
    (ofInstant t).toInstant = .ofSeconds (t.seconds / 2 * 2) := by
  rw [toInstant_of_valid (valid_unpack_ofInstant t), unpack_ofInstant_of_covered h]
  have hseconds := DateTime.seconds_ofSeconds t.seconds
  generalize DateTime.ofSeconds t.seconds = date at hseconds
  congr 1
  unfold DateTime.seconds at hseconds ⊢
  dsimp only
  push_cast
  omega

/-- A time outside the years of the format becomes the start of 1980. -/
private theorem toInstant_ofInstant_of_not_covered {t : Instant} (h : ¬Covers t) :
    (ofInstant t).toInstant = .ofSeconds 315532800 := by
  rw [toInstant_of_valid (valid_unpack_ofInstant t), unpack_ofInstant_of_not_covered h]
  rfl

/-- Fields that exist are the UTC fields of the instant they are read as. -/
private theorem ofSeconds_toInstant_of_valid {w : DosTime} (h : w.unpack.Valid) :
    DateTime.ofSeconds w.toInstant.seconds = w.unpack := by
  rw [toInstant_of_valid h, Instant.seconds_ofSeconds, DateTime.ofSeconds_seconds h]

/-- Words that are a date are the words for the instant they name. -/
private theorem covers_toInstant_of_valid {w : DosTime} (h : w.unpack.Valid) :
    Covers w.toInstant := by
  obtain ⟨hyear, hyear', -⟩ := w.unpack_mem
  unfold Covers
  rw [ofSeconds_toInstant_of_valid h]
  exact ⟨hyear, hyear'⟩

/-- The epoch stands for what is no date; it is not within the years of the
format. -/
private theorem toInstant_eq_epoch_iff {w : DosTime} :
    w.toInstant = .ofSeconds 0 ↔ ¬w.unpack.Valid := by
  constructor
  · intro hepoch hvalid
    have hcovers := covers_toInstant_of_valid hvalid
    rw [hepoch] at hcovers
    revert hcovers
    decide
  · intro hnone
    exact if_neg hnone

-- ============================================================ rounding

/-- The last even second before an instant. -/
private theorem isGreatest_even_seconds (t : Instant) :
    IsGreatest {n : Int | (Instant.ofSeconds (2 * n)).nanos ≤ t.nanos} (t.seconds / 2) := by
  have hfloor : t.seconds = t.nanos / 1000000000 :=
    Int.fdiv_eq_ediv_of_nonneg t.nanos (by decide)
  constructor
  · show 2 * (t.seconds / 2) * 1000000000 ≤ t.nanos
    omega
  · intro n hn
    change 2 * n * 1000000000 ≤ t.nanos at hn
    omega

/-- Rounding keeps the order. -/
private theorem ofInstant_mono {t u : Instant} (ht : Covers t) (hu : Covers u)
    (h : t.nanos ≤ u.nanos) :
    (ofInstant t).toInstant.nanos ≤ (ofInstant u).toInstant.nanos := by
  have hseconds : t.seconds ≤ u.seconds := by
    unfold Instant.seconds
    rw [Int.fdiv_eq_ediv_of_nonneg _ (by decide), Int.fdiv_eq_ediv_of_nonneg _ (by decide)]
    exact Int.ediv_le_ediv (by decide) h
  rw [toInstant_ofInstant_of_covered ht, toInstant_ofInstant_of_covered hu]
  show t.seconds / 2 * 2 * 1000000000 ≤ u.seconds / 2 * 2 * 1000000000
  omega

/-- What has been in an archive once is not changed by another one. -/
private theorem toInstant_ofInstant_toInstant (t : Instant) :
    (ofInstant (ofInstant t).toInstant).toInstant = (ofInstant t).toInstant := by
  have hcovers := covers_toInstant_of_valid (valid_unpack_ofInstant t)
  rw [toInstant_ofInstant_of_covered hcovers]
  by_cases h : Covers t
  · rw [toInstant_ofInstant_of_covered h, Instant.seconds_ofSeconds]
    congr 1
    omega
  · rw [toInstant_ofInstant_of_not_covered h]
    rfl

/-- The times of zip entries are rounded and never shifted.

An instant in a year that the words can name is kept as the last even
second before it; any other one becomes the start of 1980. A second
archive changes nothing, what comes earlier is kept as no later, and
what was written always names a date. Words from anywhere are read as
the instant whose UTC fields they name, and as the start of 1970 exactly
if one of the fields does not exist. -/
theorem zip_times_are_rounded :
    (∀ t : Instant, Covers t → ∃ n : Int, (ofInstant t).toInstant = .ofSeconds (2 * n)
        ∧ IsGreatest {m : Int | (Instant.ofSeconds (2 * m)).nanos ≤ t.nanos} n)
      ∧ (∀ t : Instant, ¬Covers t →
          (ofInstant t).toInstant = .ofSeconds (DateTime.seconds ⟨1980, 1, 1, 0, 0, 0⟩))
      ∧ (∀ t : Instant, (ofInstant (ofInstant t).toInstant).toInstant = (ofInstant t).toInstant)
      ∧ (∀ t u : Instant, Covers t → Covers u → t.nanos ≤ u.nanos →
          (ofInstant t).toInstant.nanos ≤ (ofInstant u).toInstant.nanos)
      ∧ (∀ t : Instant, (ofInstant t).unpack.Valid ∧ (ofInstant t).toInstant ≠ .ofSeconds 0)
      ∧ ∀ w : DosTime,
        (w.unpack.Valid → w.toInstant = .ofSeconds w.unpack.seconds
          ∧ DateTime.ofSeconds w.toInstant.seconds = w.unpack)
        ∧ (w.toInstant = .ofSeconds 0 ↔
            w.unpack.month = 0 ∨ 12 < w.unpack.month ∨ w.unpack.day = 0
              ∨ Calendar.daysInMonth w.unpack.year w.unpack.month < w.unpack.day
              ∨ 23 < w.unpack.hour ∨ 59 < w.unpack.minute ∨ 59 < w.unpack.second) := by
  refine ⟨?even, fun t h => toInstant_ofInstant_of_not_covered h, toInstant_ofInstant_toInstant,
    fun t u => ofInstant_mono, ?dated, fun w => ⟨?named, ?unnamed⟩⟩
  case even =>
    intro t h
    refine ⟨t.seconds / 2, ?_, isGreatest_even_seconds t⟩
    rw [toInstant_ofInstant_of_covered h, Int.mul_comm]
  case dated =>
    intro t
    have hvalid := valid_unpack_ofInstant t
    exact ⟨hvalid, fun hepoch => toInstant_eq_epoch_iff.mp hepoch hvalid⟩
  case named =>
    intro h
    exact ⟨toInstant_of_valid h, ofSeconds_toInstant_of_valid h⟩
  case unnamed =>
    rw [toInstant_eq_epoch_iff]
    exact DateTime.not_valid_iff

/-- The last odd second of a leap day, a moment before 1970, and the
thirteenth month of 2000. -/
theorem zip_times_are_rounded_leapDay :
    (∃ n : Int, (ofInstant ⟨1709251199999999999⟩).toInstant = .ofSeconds (2 * n)
        ∧ IsGreatest {m : Int | (Instant.ofSeconds (2 * m)).nanos ≤ 1709251199999999999} n)
      ∧ (ofInstant ⟨-1⟩).toInstant = .ofSeconds (DateTime.seconds ⟨1980, 1, 1, 0, 0, 0⟩)
      ∧ (ofInstant ⟨1709251199999999999⟩).toInstant.nanos
        ≤ (ofInstant ⟨1709251200000000000⟩).toInstant.nanos
      ∧ DateTime.ofSeconds (pack 2024 2 29 23 59 59).toInstant.seconds = ⟨2024, 2, 29, 23, 59, 58⟩
      ∧ (pack 2000 13 1 0 0 0).toInstant = .ofSeconds 0 := by
  obtain ⟨heven, hother, -, hmono, -, hread⟩ := zip_times_are_rounded
  have hleapDay : Covers ⟨1709251199999999999⟩ := by decide
  have hdate : (pack 2024 2 29 23 59 59).unpack.Valid := by decide
  exact ⟨heven _ hleapDay, hother ⟨-1⟩ (by decide), hmono _ _ hleapDay (by decide) (by decide),
    ((hread _).1 hdate).2, (hread _).2.mpr (by decide)⟩

end Zip.DosTime

end RouterSeed
