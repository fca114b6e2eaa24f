/-
Byte strings, and the two ways a number is written in them.

Everything this library signs, packs or serves is a list of bytes, so
that a proof about a format is a proof about append, `take` and `drop`.
Numbers of a fixed width are written big-endian in su3 headers, keys and
signatures, and little-endian in zip archives; numbers of no fixed width
(the moduli and exponents of keys) are written big-endian without a
leading zero byte.

Consumed by every format module.
-/
import RouterSeed.Number.Power

namespace RouterSeed

/-- A byte string. -/
abbrev Bytes := List UInt8

namespace Bytes

-- ==================================================== little-endian

/-- The low `width` bytes of `n`, least significant first. -/
def ofNatLE : (width : Nat) → (n : Nat) → Bytes
  | 0, _ => []
  | width + 1, n => UInt8.ofNat n :: ofNatLE width (n / 256)

/-- The number whose base 256 digits are `bytes`, least significant first. -/
def toNatLE : Bytes → Nat
  | [] => 0
  | b :: rest => b.toNat + 256 * toNatLE rest

@[simp] theorem length_ofNatLE (width n : Nat) : (ofNatLE width n).length = width := by
  induction width generalizing n with
  | zero => rfl
  | succ width ih => simp [ofNatLE, ih]

theorem toNatLE_ofNatLE (width n : Nat) : toNatLE (ofNatLE width n) = n % 256 ^ width := by
  induction width generalizing n with
  | zero => simp [ofNatLE, toNatLE, Nat.mod_one]
  | succ width ih =>
    simp only [ofNatLE, toNatLE, ih, UInt8.toNat_ofNat']
    rw [show (2 : Nat) ^ 8 = 256 from rfl, Nat.pow_succ, Nat.mul_comm (256 ^ width), Nat.mod_mul]

theorem toNatLE_lt (bytes : Bytes) : toNatLE bytes < 256 ^ bytes.length := by
  induction bytes with
  | nil => simp [toNatLE]
  | cons b rest ih =>
    have := b.toNat_lt
    simp only [toNatLE, List.length_cons, Nat.pow_succ]
    omega

-- ======================================================= big-endian

/-- The low `width` bytes of `n`, most significant first. -/
def ofNat (width n : Nat) : Bytes := (ofNatLE width n).reverse

/-- The number whose base 256 digits are `bytes`, most significant first. -/
def toNat (bytes : Bytes) : Nat := bytes.foldl (fun n b => n * 256 + b.toNat) 0

@[simp] theorem length_ofNat (width n : Nat) : (ofNat width n).length = width := by
  simp [ofNat]

/-- Both readings of a number agree once the digits are turned round. -/
theorem toNat_eq_toNatLE (bytes : Bytes) : toNat bytes = toNatLE bytes.reverse := by
  have shift : ∀ (xs : Bytes) (b : UInt8),
      toNatLE (xs ++ [b]) = toNatLE xs + 256 ^ xs.length * b.toNat := by
    intro xs b
    induction xs with
    | nil => simp [toNatLE]
    | cons x xs ih =>
      simp only [List.cons_append, toNatLE, ih, List.length_cons, Nat.pow_succ]
      grind
  have fold : ∀ (xs : Bytes) (n : Nat),
      xs.foldl (fun n b => n * 256 + b.toNat) n = n * 256 ^ xs.length + toNatLE xs.reverse := by
    intro xs
    induction xs with
    | nil => simp [toNatLE]
    | cons x xs ih =>
      intro n
      simp only [List.foldl_cons, ih, List.length_cons, List.reverse_cons, shift,
        List.length_reverse, Nat.pow_succ]
      grind
  simp [toNat, fold]

/-- A number survives the trip through `width` bytes up to what they can hold. -/
theorem toNat_ofNat (width n : Nat) : toNat (ofNat width n) = n % 256 ^ width := by
  rw [toNat_eq_toNatLE, ofNat, List.reverse_reverse, toNatLE_ofNatLE]

theorem toNat_lt (bytes : Bytes) : toNat bytes < 256 ^ bytes.length := by
  rw [toNat_eq_toNatLE]
  simpa using toNatLE_lt bytes.reverse

theorem ofNatLE_toNatLE (bytes : Bytes) : ofNatLE bytes.length (toNatLE bytes) = bytes := by
  induction bytes with
  | nil => rfl
  | cons b rest ih =>
    have hb := b.toNat_lt
    have hdigit : UInt8.ofNat (b.toNat + 256 * toNatLE rest) = b := by
      rw [← UInt8.toNat_inj, UInt8.toNat_ofNat']
      omega
    have hrest : (b.toNat + 256 * toNatLE rest) / 256 = toNatLE rest := by omega
    simp only [List.length_cons, toNatLE, ofNatLE, hdigit, hrest, ih]

/-- Bytes survive the trip through the number they stand for. -/
theorem ofNat_toNat (bytes : Bytes) : ofNat bytes.length (toNat bytes) = bytes := by
  have h := ofNatLE_toNatLE bytes.reverse
  rw [List.length_reverse] at h
  rw [toNat_eq_toNatLE, ofNat, h, List.reverse_reverse]

/-- The number of bytes of `n` written without a leading zero; zero takes one byte. -/
def widthOf (n : Nat) : Nat := n.log2 / 8 + 1

/-- `n` big-endian without a leading zero byte; zero is a single zero byte. -/
def ofNatMinimal (n : Nat) : Bytes := ofNat (widthOf n) n

theorem lt_pow_widthOf (n : Nat) : n < 256 ^ widthOf n := by
  have hbits : n.log2 + 1 ≤ 8 * widthOf n := by
    unfold widthOf
    omega
  calc n < 2 ^ (n.log2 + 1) := Nat.lt_log2_self
    _ ≤ 2 ^ (8 * widthOf n) := Nat.pow_le_pow_right (by decide) hbits
    _ = 256 ^ widthOf n := by rw [Nat.pow_mul]

theorem pow_widthOf_le {n : Nat} (h : n ≠ 0) : 256 ^ (widthOf n - 1) ≤ n := by
  have hbits : 8 * (widthOf n - 1) ≤ n.log2 := by
    unfold widthOf
    omega
  calc 256 ^ (widthOf n - 1) = 2 ^ (8 * (widthOf n - 1)) := by rw [Nat.pow_mul]
    _ ≤ 2 ^ n.log2 := Nat.pow_le_pow_right (by decide) hbits
    _ ≤ n := Nat.log2_self_le h

theorem widthOf_le {n width : Nat} (hwidth : 0 < width) (h : n < 256 ^ width) :
    widthOf n ≤ width := by
  by_cases hzero : n = 0
  · rw [hzero]
    exact hwidth
  · have hpow := Nat.lt_of_le_of_lt (pow_widthOf_le hzero) h
    have := (Nat.pow_lt_pow_iff_right (by decide : 1 < 256)).mp hpow
    omega

@[simp] theorem length_ofNatMinimal (n : Nat) : (ofNatMinimal n).length = widthOf n :=
  length_ofNat _ _

@[simp] theorem toNat_ofNatMinimal (n : Nat) : toNat (ofNatMinimal n) = n := by
  rw [ofNatMinimal, toNat_ofNat]
  exact Nat.mod_eq_of_lt (lt_pow_widthOf n)

theorem toNat_zero_cons (bytes : Bytes) : toNat (0 :: bytes) = toNat bytes := by
  unfold toNat
  rw [List.foldl_cons]
  rfl

theorem ofNatMinimal_lead_ne_zero {n : Nat} {lead : UInt8} {rest : Bytes} (hn : n ≠ 0)
    (h : ofNatMinimal n = lead :: rest) : lead ≠ 0 := by
  rintro rfl
  have hvalue : toNat rest = n := by
    rw [← toNat_zero_cons, ← h]
    exact toNat_ofNatMinimal n
  have hwidth : rest.length + 1 = widthOf n := by
    rw [← length_ofNatMinimal, h, List.length_cons]
  have hlt := toNat_lt rest
  have hle := pow_widthOf_le hn
  rw [← hwidth, Nat.add_sub_cancel] at hle
  omega

/-- Parts that are not empty are no more than the bytes they make up. -/
theorem length_le_length_flatten {parts : List Bytes} (h : ∀ part ∈ parts, part ≠ []) :
    parts.length ≤ parts.flatten.length := by
  induction parts with
  | nil => exact Nat.le_refl 0
  | cons part parts ih =>
    have hpart := List.length_pos_iff.mpr (h part List.mem_cons_self)
    have hparts := ih fun part hmem => h part (List.mem_cons_of_mem _ hmem)
    rw [List.flatten_cons, List.length_append, List.length_cons]
    omega

-- ============================================================= text

/-- The UTF-8 bytes of a text. -/
def ofString (text : String) : Bytes := text.toList.flatMap String.utf8EncodeChar

-- =========================================================== slices

/-- The `length` bytes from position `start`. -/
def slice (start length : Nat) (bytes : Bytes) : Bytes := (bytes.drop start).take length

/-- The first `length` bytes and what follows them, if there are so many. -/
def split? (length : Nat) (bytes : Bytes) : Option (Bytes × Bytes) :=
  if length ≤ bytes.length then some (bytes.take length, bytes.drop length) else none

theorem split?_of_le {length : Nat} {bytes : Bytes} (h : length ≤ bytes.length) :
    split? length bytes = some (bytes.take length, bytes.drop length) := if_pos h

/-- `bytes` followed by as many zero bytes as make it `length` long. -/
def padTo (length : Nat) (bytes : Bytes) : Bytes :=
  bytes ++ List.replicate (length - bytes.length) 0

@[simp] theorem length_padTo (length : Nat) (bytes : Bytes) :
    (padTo length bytes).length = max length bytes.length := by
  simp only [padTo, List.length_append, List.length_replicate]
  omega

end Bytes

end RouterSeed
