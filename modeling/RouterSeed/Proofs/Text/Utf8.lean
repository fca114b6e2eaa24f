/-
Text survives the trip through its bytes.

A character of one to four bytes is met as exactly that character and
takes exactly those bytes (`pieceAt_utf8EncodeChar`): the length class is
told by the first byte alone, the first continuation is above what a
shorter form could say and off the surrogates, and the digits of base 64
add up to the code point. A whole text follows character by character.

Consumed by the PEM proofs, which need it for plain ASCII, and by the
archive proofs for the names of entries.
-/
import RouterSeed.Text.Utf8

namespace RouterSeed.Text

-- ====================================================== one character

-- What may follow each leading byte, class by class.

/-- A character of one byte has nothing behind its first. -/
private theorem continuations_one : ∀ n < 0x80, continuations (UInt8.ofNat n) = some [] := by
  decide +kernel

/-- One of two bytes has any continuation. -/
private theorem continuations_two : ∀ n < 0xE0, 0xC2 ≤ n →
    continuations (UInt8.ofNat n) = some [(0x80, 0xBF)] := by
  decide +kernel

/-- Of three bytes, the first continuation keeps overlong forms and
surrogates out. -/
private theorem continuations_three : ∀ n < 0xF0, 0xE0 ≤ n → continuations (UInt8.ofNat n)
    = some [(if n = 0xE0 then 0xA0 else 0x80, if n = 0xED then 0x9F else 0xBF), (0x80, 0xBF)] := by
  decide +kernel

/-- Of four bytes, it keeps overlong forms out, and what is above the last
character. -/
private theorem continuations_four : ∀ n < 0xF5, 0xF0 ≤ n → continuations (UInt8.ofNat n)
    = some [(if n = 0xF0 then 0x90 else 0x80, if n = 0xF4 then 0x8F else 0xBF), (0x80, 0xBF),
        (0x80, 0xBF)] := by
  decide +kernel

private theorem toNat_ofNat_of_lt {n : Nat} (h : n < 256) : (UInt8.ofNat n).toNat = n :=
  UInt8.toNat_ofNat_of_lt' h

/-- A continuation within its bounds adds six bits to the code. -/
private theorem follow_ofNat {low high : UInt8} {more : List (UInt8 × UInt8)} {rest : Bytes}
    {n code taken : Nat} (hn : n < 256) (hlow : low.toNat ≤ n) (hhigh : n ≤ high.toNat) :
    follow ((low, high) :: more) (UInt8.ofNat n :: rest) code taken
      = follow more rest (code * 64 + n % 64) (taken + 1) := by
  have hvalue : (UInt8.ofNat n).toNat = n := toNat_ofNat_of_lt hn
  have hrange : low ≤ UInt8.ofNat n ∧ UInt8.ofNat n ≤ high := by
    rw [UInt8.le_iff_toNat_le, UInt8.le_iff_toNat_le, hvalue]
    exact ⟨hlow, hhigh⟩
  rw [follow, if_pos hrange, hvalue]

/-- Every byte after the first continuation may be any. -/
private theorem follow_digit {more : List (UInt8 × UInt8)} {rest : Bytes} {code taken : Nat}
    (v : Nat) :
    follow ((0x80, 0xBF) :: more) (UInt8.ofNat (v % 64 + 128) :: rest) code taken
      = follow more rest (code * 64 + (v % 64 + 128) % 64) (taken + 1) := by
  refine follow_ofNat (by omega) ?low ?high
  case low =>
    show 128 ≤ _
    omega
  case high =>
    show _ ≤ 191
    omega

variable {v : Nat}

/-- The four lengths of an encoding: one byte. -/
private theorem pieceAt_one (h : v < 0x80) (rest : Bytes) :
    pieceAt (UInt8.ofNat v) rest = (.char (Char.ofNat v), 0) := by
  have hlead : (UInt8.ofNat v).toNat = v := toNat_ofNat_of_lt (by omega)
  unfold pieceAt
  rw [continuations_one v h]
  show (Piece.char (Char.ofNat (UInt8.ofNat v).toNat), 0) = _
  rw [hlead]

private theorem pieceAt_two (hlow : 0x7F < v) (hhigh : v ≤ 0x7FF) (rest : Bytes) :
    pieceAt (UInt8.ofNat (v / 64 % 32 + 192)) (UInt8.ofNat (v % 64 + 128) :: rest)
      = (.char (Char.ofNat v), 1) := by
  have hlead : (UInt8.ofNat (v / 64 % 32 + 192)).toNat = v / 64 % 32 + 192 :=
    toNat_ofNat_of_lt (by omega)
  have hcode : (v / 64 % 32 + 192) % 32 * 64 + (v % 64 + 128) % 64 = v := by omega
  unfold pieceAt
  rw [continuations_two (v / 64 % 32 + 192) (by omega) (by omega)]
  show follow _ _ ((UInt8.ofNat (v / 64 % 32 + 192)).toNat % 32) 0 = _
  rw [hlead, follow_digit, hcode, follow]

/-- Three bytes, with the surrogates left out. -/
private theorem pieceAt_three (hlow : 0x7FF < v) (hhigh : v ≤ 0xFFFF)
    (hvalid : v < 0xD800 ∨ 0xDFFF < v)
    (rest : Bytes) :
    pieceAt (UInt8.ofNat (v / 4096 % 16 + 224))
        (UInt8.ofNat (v / 64 % 64 + 128) :: UInt8.ofNat (v % 64 + 128) :: rest)
      = (.char (Char.ofNat v), 2) := by
  have hlead : (UInt8.ofNat (v / 4096 % 16 + 224)).toNat = v / 4096 % 16 + 224 :=
    toNat_ofNat_of_lt (by omega)
  have hcode : ((v / 4096 % 16 + 224) % 16 * 64 + (v / 64 % 64 + 128) % 64) * 64
      + (v % 64 + 128) % 64 = v := by omega
  unfold pieceAt
  rw [continuations_three (v / 4096 % 16 + 224) (by omega) (by omega)]
  show follow _ _ ((UInt8.ofNat (v / 4096 % 16 + 224)).toNat % 16) 0 = _
  -- no shorter form, and no surrogate
  rw [hlead, follow_ofNat (by omega) ?low ?high, follow_digit, hcode, follow]
  case low =>
    split
    · show 160 ≤ _
      omega
    · show 128 ≤ _
      omega
  case high =>
    split
    · show _ ≤ 159
      omega
    · show _ ≤ 191
      omega

private theorem pieceAt_four (hlow : 0xFFFF < v) (hhigh : v < 0x110000) (rest : Bytes) :
    pieceAt (UInt8.ofNat (v / 262144 % 8 + 240))
        (UInt8.ofNat (v / 4096 % 64 + 128) :: UInt8.ofNat (v / 64 % 64 + 128)
          :: UInt8.ofNat (v % 64 + 128) :: rest)
      = (.char (Char.ofNat v), 3) := by
  have hlead : (UInt8.ofNat (v / 262144 % 8 + 240)).toNat = v / 262144 % 8 + 240 :=
    toNat_ofNat_of_lt (by omega)
  have hcode : (((v / 262144 % 8 + 240) % 8 * 64 + (v / 4096 % 64 + 128) % 64) * 64
      + (v / 64 % 64 + 128) % 64) * 64 + (v % 64 + 128) % 64 = v := by omega
  unfold pieceAt
  rw [continuations_four (v / 262144 % 8 + 240) (by omega) (by omega)]
  show follow _ _ ((UInt8.ofNat (v / 262144 % 8 + 240)).toNat % 8) 0 = _
  -- no shorter form, and nothing above the last code point
  rw [hlead, follow_ofNat (by omega) ?low ?high, follow_digit, follow_digit, hcode, follow]
  case low =>
    split
    · show 144 ≤ _
      omega
    · show 128 ≤ _
      omega
  case high =>
    split
    · show _ ≤ 143
      omega
    · show _ ≤ 191
      omega

/-- A character is met as itself, and all of its bytes are taken. -/
private theorem pieceAt_utf8EncodeChar (c : Char) (rest : Bytes) :
    ∃ lead more, String.utf8EncodeChar c = lead :: more
      ∧ pieceAt lead (more ++ rest) = (.char c, more.length) := by
  have hvalid : c.val.toNat < 0xD800 ∨ 0xDFFF < c.val.toNat ∧ c.val.toNat < 0x110000 := c.valid
  have hchar : Char.ofNat c.val.toNat = c := Char.ofNat_toNat c
  unfold String.utf8EncodeChar
  generalize c.val.toNat = v at hvalid hchar
  rw [← hchar]
  dsimp only
  split
  next hone => exact ⟨_, _, rfl, pieceAt_one (by omega) rest⟩
  split
  next htwo => exact ⟨_, _, rfl, pieceAt_two (by omega) htwo rest⟩
  split
  next hthree => exact ⟨_, _, rfl, pieceAt_three (by omega) hthree (by omega) rest⟩
  next hfour => exact ⟨_, _, rfl, pieceAt_four (by omega) (by omega) rest⟩

-- ======================================================== whole texts

/-- What was encoded is gathered character by character. -/
private theorem gather_flatMap_utf8EncodeChar (chars : List Char) (seen : List Piece) :
    gather (chars.flatMap String.utf8EncodeChar) seen = (chars.map Piece.char).reverse ++ seen := by
  induction chars generalizing seen with
  | nil =>
    rw [List.flatMap_nil, gather]
    rfl
  | cons c chars ih =>
    obtain ⟨lead, more, hbytes, hpiece⟩ :=
      pieceAt_utf8EncodeChar c (chars.flatMap String.utf8EncodeChar)
    rw [List.flatMap_cons, hbytes, List.cons_append, gather, hpiece]
    dsimp only
    rw [List.drop_left, ih]
    simp

/-- The bytes of a text are its characters, with nothing broken among them. -/
private theorem pieces_ofString (text : String) :
    pieces (Bytes.ofString text) = text.toList.map Piece.char := by
  unfold pieces Bytes.ofString
  rw [gather_flatMap_utf8EncodeChar, List.append_nil, List.reverse_reverse]

/-- So nothing of it is lost where decoding replaces what is broken. -/
@[simp] theorem decodeLossy_ofString (text : String) :
    decodeLossy (Bytes.ofString text) = text := by
  unfold decodeLossy
  rw [pieces_ofString, List.map_map]
  show String.ofList (text.toList.map id) = text
  rw [List.map_id, String.ofList_toList]

/-- Nor is it refused where decoding is strict. -/
@[simp] theorem decode?_ofString (text : String) : decode? (Bytes.ofString text) = some text := by
  have hall : ∀ chars : List Char, (chars.map Piece.char).mapM Piece.char? = some chars := by
    intro chars
    induction chars with
    | nil => rfl
    | cons c chars ih =>
      rw [List.map_cons, List.mapM_cons, ih]
      rfl
  unfold decode?
  rw [pieces_ofString, hall, Option.map_some, String.ofList_toList]

-- ============================================================== ASCII

/-- The text with one character for each byte. -/
def ofAscii (bytes : Bytes) : String := String.ofList (bytes.map fun b => Char.ofNat b.toNat)

/-- ASCII is one byte a character. -/
theorem utf8EncodeChar_ofNat : ∀ n < 0x80,
    String.utf8EncodeChar (Char.ofNat n) = [UInt8.ofNat n] := by
  decide +kernel

/-- Bytes that are ASCII come back from the text that they are. -/
theorem ofString_ofAscii {bytes : Bytes} (h : ∀ b ∈ bytes, b < 0x80) :
    Bytes.ofString (ofAscii bytes) = bytes := by
  unfold Bytes.ofString ofAscii
  rw [String.toList_ofList]
  induction bytes with
  | nil => rfl
  | cons b bytes ih =>
    have hb : b.toNat < 0x80 := UInt8.lt_iff_toNat_lt.mp (h b List.mem_cons_self)
    rw [List.map_cons, List.flatMap_cons, utf8EncodeChar_ofNat _ hb, UInt8.ofNat_toNat,
      ih fun b hb => h b (List.mem_cons_of_mem _ hb)]
    rfl

end RouterSeed.Text
